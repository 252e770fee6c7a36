import CallStake.Bridge.Entrypoints

/-!
# The supply of the wrapped assets

A mint happens when a transfer is executed, a burn when one is initiated. The books of the wrapped assets
follow the transfers.

* `netAmount`: what a transfer has added to the supply so far. `netTotal p`: the sum over the transfers of
  the holdings in `p`.
* `Booking w w' key delta`: one step adds `delta` to the supply and to the balance of `key`, and the
  transfers account for it. `Effect.booking`: every call is a booking.
* `supply_accounted`: in every run the supply is the sum of the balances, none of which is negative, and
  what was minted less what was burned; no source transaction is minted twice.
* `unmoved_of_unsigned`: without the signature of its holder no balance shrinks, and without the one of the
  administrator nothing is minted.
-/

namespace CallStake.Bridge

open Store

/-! ## What the transfers account for -/

def BridgeTransfer.holding (t : BridgeTransfer) : Address × Bytes := (t.user, t.wrappedAsset)

/-- The amount of a completed lock-mint. -/
def mintedAmount (t : BridgeTransfer) : Int := if t.kind = .lockMint ∧ t.status = .completed then t.amount else 0

/-- The amount of a burn-unlock, whatever its status. -/
def burnedAmount (t : BridgeTransfer) : Int := if t.kind = .burnUnlock then t.amount else 0

def netAmount (t : BridgeTransfer) : Int := mintedAmount t - burnedAmount t

section Totals

variable (p : Address × Bytes → Prop) [DecidablePred p]

def netOf (t : BridgeTransfer) : Int := if p t.holding then netAmount t else 0

/-- What the transfers of the holdings in `p` have added to the supply. -/
def netTotal (w : World) : Int := Store.total (netOf p) w.store.books.transfers

end Totals

def wrappedBalance (w : World) (holding : Address × Bytes) : Int :=
  (w.store.books.wrappedBalances.lookup holding).getD 0

/-! ## Bookings -/

/-- The step adds `delta` to the supply and to the balance of `key`, and the transfers account for it. -/
structure Booking (w w' : World) (key : Address × Bytes) (delta : Int) : Prop where
  minted : w'.store.books.totalMinted = w.store.books.totalMinted + delta
  balance : ∀ k, wrappedBalance w' k = wrappedBalance w k + if k = key then delta else 0
  sum : Store.total id w'.store.books.wrappedBalances = Store.total id w.store.books.wrappedBalances + delta
  net : ∀ (p : Address × Bytes → Prop) [DecidablePred p], netTotal p w' = netTotal p w + if p key then delta else 0

section Booking

variable {env : Env} {w w' : World} {c : Call}

/-- A step that leaves the balances and the net amounts alone. -/
theorem Booking.idle (key : Address × Bytes)
    (hminted : w'.store.books.totalMinted = w.store.books.totalMinted)
    (hbalances : w'.store.books.wrappedBalances = w.store.books.wrappedBalances)
    (hnet : ∀ (p : Address × Bytes → Prop) [DecidablePred p], netTotal p w' = netTotal p w) :
    Booking w w' key 0 where
  minted := by rw [hminted, Int.add_zero]
  balance k := by simp [wrappedBalance, hbalances]
  sum := by rw [hbalances, Int.add_zero]
  net p _ := by rw [hnet p]; simp

/-- A step that writes one balance. -/
theorem Booking.write {key : Address × Bytes} {delta : Int}
    (hminted : w'.store.books.totalMinted = w.store.books.totalMinted + delta)
    (hbalances : w'.store.books.wrappedBalances =
      w.store.books.wrappedBalances.insert key (wrappedBalance w key + delta))
    (hnet : ∀ (p : Address × Bytes → Prop) [DecidablePred p],
      netTotal p w' = netTotal p w + if p key then delta else 0) :
    Booking w w' key delta where
  minted := hminted
  balance k := by
    unfold wrappedBalance
    rw [hbalances, lookup_insert_eq]
    by_cases hk : k = key
    · subst hk
      simp [wrappedBalance]
    · simp [hk]
  sum := by
    rw [hbalances, total_insert, part_id]
    unfold wrappedBalance
    simp
    omega
  net := hnet

/-- The net amounts after a new transfer. -/
theorem netTotal_opened (h : Ordered w) {config : BridgeConfig} {t : BridgeTransfer}
    (hconfig : w.store.config = some config) (hid : t.id = config.nextTransferId)
    (p : Address × Bytes → Prop) [DecidablePred p] :
    netTotal p (w.opened config t) = netTotal p w + netOf p t := by
  have hfree := h.free hconfig
  rw [← hid] at hfree
  simp only [netTotal, World.opened, total_insert, part_none hfree]
  omega

/-- The net amounts after a transfer was replaced. -/
theorem netTotal_updated (h : Ordered w) {id : Nat} {t : BridgeTransfer} (t' : BridgeTransfer)
    (ht : w.store.books.transfers.lookup id = some t) (hid : t'.id = t.id)
    (p : Address × Bytes → Prop) [DecidablePred p] :
    netTotal p (w.updated t') = netTotal p w - netOf p t + netOf p t' := by
  rw [← h.keyed id t ht, ← hid] at ht
  simp only [netTotal, World.updated, total_insert, part_some ht]

/-- An update that is no mint. -/
theorem netTotal_kept (h : Ordered w) {id : Nat} {t : BridgeTransfer} (t' : BridgeTransfer)
    (ht : w.store.books.transfers.lookup id = some t) (hid : t'.id = t.id) (hholding : t'.holding = t.holding)
    (hnet : netAmount t' = netAmount t) (p : Address × Bytes → Prop) [DecidablePred p] :
    netTotal p (w.updated t') = netTotal p w := by
  rw [netTotal_updated h t' ht hid p]
  unfold netOf
  rw [hholding, hnet]
  omega

/-- A transfer that is not completed before and after counts the same. -/
theorem netAmount_open {t t' : BridgeTransfer} (hkind : t'.kind = t.kind) (hamount : t'.amount = t.amount)
    (hopen : t.status ≠ .completed) (hopen' : t'.status ≠ .completed) : netAmount t' = netAmount t := by
  unfold netAmount mintedAmount burnedAmount
  have h0 : ¬ (t.kind = .lockMint ∧ t.status = .completed) := fun h => hopen h.2
  have h1 : ¬ (t.kind = .lockMint ∧ t'.status = .completed) := fun h => hopen' h.2
  rw [hkind, hamount, if_neg h0, if_neg h1]

/-- Every call is a booking; one that takes from a balance leaves it nonnegative. -/
theorem Effect.booking (h : Ordered w) (hpos : Store.All (0 < ·.amount) w.store.books.transfers)
    (he : Effect env w c w') : ∃ key delta, Booking w w' key delta ∧
      (0 ≤ delta ∨ 0 ≤ wrappedBalance w key + delta) := by
  -- most calls book nothing: no transfer changes what it has added to the supply
  have hidle : (∀ (p : Address × Bytes → Prop) [DecidablePred p], netTotal p w' = netTotal p w) →
      w'.store.books.totalMinted = w.store.books.totalMinted →
      w'.store.books.wrappedBalances = w.store.books.wrappedBalances →
      ∃ key delta, Booking w w' key delta ∧ (0 ≤ delta ∨ 0 ≤ wrappedBalance w key + delta) :=
    fun hnet hminted hbalances => ⟨(⟨0⟩, []), 0, .idle _ hminted hbalances hnet, .inl (Int.le_refl 0)⟩
  cases he with
  | settled => exact hidle (fun p _ => rfl) rfl rfl
  | initialized => exact hidle (fun p _ => rfl) rfl rfl
  | @locked user source destination asset wrapped amount hash nonce recipient config t ht hadm =>
    refine hidle (fun p _ => ?_) rfl rfl
    have hnet := netTotal_opened h (t := t) hadm.configured (by rw [ht]; rfl) p
    have hzero : netOf p t = 0 := by
      subst ht
      simp [netOf, BridgeTransfer.initiated, netAmount, mintedAmount, burnedAmount]
    rw [hzero, Int.add_zero] at hnet
    exact hnet
  | @burned user source destination asset wrapped amount recipient config t ht hadm hfunds =>
    refine ⟨(user, wrapped), -amount, .write rfl rfl fun p _ => ?_, .inr ?_⟩
    · have hnet := netTotal_opened h (t := t) hadm.configured (by rw [ht]; rfl) p
      have hburned : netOf p t = if p (user, wrapped) then -amount else 0 := by
        subst ht
        simp [netOf, BridgeTransfer.holding, BridgeTransfer.initiated, netAmount, mintedAmount, burnedAmount]
      rw [hburned] at hnet
      exact hnet
    · unfold wrappedBalance
      omega
  | @approved kind validator id signature config t _ _ ht _ hopen =>
    refine hidle (fun p _ => ?_) rfl rfl
    refine netTotal_kept h (t.approved config.security.requiredValidatorSignatures _) ht rfl rfl
      (netAmount_open rfl rfl hopen ?_) p
    unfold BridgeTransfer.approved
    dsimp only
    split
    · exact nofun
    · exact hopen
  | @minted admin id config t consumed _ _ _ ht hkind hready =>
    refine ⟨t.holding, t.amount, .write rfl rfl fun p _ => ?_, .inl (Int.le_of_lt (hpos id t ht))⟩
    have hnet := netTotal_updated h (t.executed w.ledger.timestamp) ht rfl p
    have hbefore : netOf p t = 0 := by simp [netOf, netAmount, mintedAmount, burnedAmount, hkind, hready]
    have hafter : netOf p (t.executed w.ledger.timestamp) = if p t.holding then t.amount else 0 := by
      have hamount : netAmount (t.executed w.ledger.timestamp) = t.amount := by
        simp [netAmount, mintedAmount, BridgeTransfer.executed, hkind, burnedAmount]
      rw [netOf, hamount]
      rfl
    rw [hbefore, hafter, Int.sub_zero] at hnet
    exact hnet
  | @unlocked admin id config t _ _ _ ht hkind hready =>
    refine hidle (fun p _ => netTotal_kept h (t.executed w.ledger.timestamp) ht rfl rfl ?_ p) rfl rfl
    simp [netAmount, mintedAmount, BridgeTransfer.executed, hkind, burnedAmount]
  | @failed admin id reason retryable config t _ _ _ ht hopen =>
    exact hidle (fun p _ => netTotal_kept h (t.markedFailed reason retryable) ht rfl rfl
      (netAmount_open rfl rfl hopen nofun) p) rfl rfl
  | @retried admin id config t _ _ _ ht hfailed =>
    refine hidle (fun p _ => netTotal_kept h t.retried ht rfl rfl (netAmount_open rfl rfl ?_ nofun) p) rfl rfl
    rw [hfailed]
    exact nofun

end Booking

/-! ## The invariants -/

/-- The books and the transfers agree. -/
structure Balanced (w : World) : Prop where
  ordered : Ordered w
  positive : Store.All (0 < ·.amount) w.store.books.transfers
  sum : w.store.books.totalMinted = Store.total id w.store.books.wrappedBalances
  balance : ∀ key, wrappedBalance w key = netTotal (· = key) w
  minted : w.store.books.totalMinted = netTotal (fun _ => True) w
  nonneg : ∀ key, 0 ≤ wrappedBalance w key

/-- The source transactions of the lock-mints are locked, and belong to one transfer each. -/
structure Locked (w : World) : Prop where
  locked : ∀ id t, w.store.books.transfers.lookup id = some t → t.kind = .lockMint →
    w.store.books.replayLocks.lookup t.origin = some ()
  unique : ∀ id id' t t', w.store.books.transfers.lookup id = some t →
    w.store.books.transfers.lookup id' = some t' → t.kind = .lockMint → t'.kind = .lockMint →
    t.origin = t'.origin → id = id'

section Steps

variable {env : Env} {host : Host} {w w' : World} {c : Call} {ev : Event}

theorem Balanced.deployed (ledger : Ledger) : Balanced (.deployed ledger) where
  ordered := .deployed ledger
  positive := all_empty _
  sum := rfl
  balance _ := rfl
  minted := rfl
  nonneg _ := Int.le_refl 0

theorem Balanced.effect (h : Balanced w) (he : Effect env w c w') : Balanced w' := by
  obtain ⟨key, delta, hb, hdelta⟩ := he.booking h.ordered h.positive
  refine ⟨h.ordered.effect he, fun id t' ht' => ?_, ?_, fun k => ?_, ?_, fun k => ?_⟩
  · have hch := he.change h.ordered id
    rw [ht'] at hch
    cases ht : w.store.books.transfers.lookup id with
    | none =>
      rw [ht] at hch
      cases hch with
      | opened _ _ hpos => exact hpos
    | some t =>
      rw [ht] at hch
      obtain ⟨t₁, heq, hterms⟩ := hch.sameTerms
      cases heq
      show 0 < t'.amount
      rw [hterms.amount]
      exact h.positive id t ht
  · rw [hb.minted, hb.sum, h.sum]
  · rw [hb.balance, hb.net, h.balance]
    simp only [eq_comm]
  · rw [hb.minted, hb.net, h.minted, if_pos trivial]
  · rw [hb.balance]
    have hk := h.nonneg k
    by_cases heq : k = key
    · subst heq
      rw [if_pos rfl]
      omega
    · rw [if_neg heq]
      omega

theorem Balanced.step (h : Balanced w) (hs : Step host w ev w') : Balanced w' := by
  obtain ⟨auth, c, -, -, he⟩ | ⟨-, hstore, -⟩ := step_effect hs
  · exact h.effect he
  · obtain ⟨ledger', store'⟩ := w'
    obtain rfl : store' = w.store := hstore
    exact ⟨h.ordered.of_store rfl, h.positive, h.sum, h.balance, h.minted, h.nonneg⟩

theorem Locked.deployed (ledger : Ledger) : Locked (.deployed ledger) where
  locked id t ht := by cases ht
  unique id id' t t' ht := by cases ht

/-- Transfers that keep their terms stay locked. -/
theorem Locked.kept (h : Locked w) (hlocks : w'.store.books.replayLocks = w.store.books.replayLocks)
    (hold : ∀ id t', w'.store.books.transfers.lookup id = some t' → t'.kind = .lockMint →
      ∃ t, w.store.books.transfers.lookup id = some t ∧ SameTerms t t') : Locked w' where
  locked id t' ht' hkind := by
    obtain ⟨t, ht, hterms⟩ := hold id t' ht' hkind
    rw [hlocks, hterms.origin]
    exact h.locked id t ht (hterms.kind.symm.trans hkind)
  unique id₁ id₂ t₁' t₂' ht₁' ht₂' hkind₁ hkind₂ horigin := by
    obtain ⟨t₁, ht₁, hterms₁⟩ := hold id₁ t₁' ht₁' hkind₁
    obtain ⟨t₂, ht₂, hterms₂⟩ := hold id₂ t₂' ht₂' hkind₂
    rw [hterms₁.origin, hterms₂.origin] at horigin
    exact h.unique id₁ id₂ t₁ t₂ ht₁ ht₂ (hterms₁.kind.symm.trans hkind₁) (hterms₂.kind.symm.trans hkind₂)
      horigin

/-- A replaced transfer, seen from any id. -/
theorem lookup_updated (ho : Ordered w) {id id' : Nat} {t t' t₁ : BridgeTransfer}
    (ht₁ : (w.updated t').store.books.transfers.lookup id' = some t₁)
    (ht : w.store.books.transfers.lookup id = some t) (hid : t'.id = t.id) (hterms : SameTerms t t') :
    ∃ t₀, w.store.books.transfers.lookup id' = some t₀ ∧ SameTerms t₀ t₁ := by
  rw [World.updated, lookup_insert_eq, hid, ho.keyed id t ht] at ht₁
  split at ht₁
  · rename_i heq
    cases ht₁
    exact ⟨t, by rw [heq]; exact ht, hterms⟩
  · exact ⟨t₁, ht₁, rfl, rfl, rfl, rfl, rfl⟩

/-- A new lock-mint of a source transaction that was not locked before. -/
theorem Locked.opened (h : Locked w) {t : BridgeTransfer}
    (hfree : w.store.books.replayLocks.lookup t.origin = none)
    (htransfers : w'.store.books.transfers = w.store.books.transfers.insert t.id t)
    (hlocks : w'.store.books.replayLocks = w.store.books.replayLocks.insert t.origin ()) : Locked w' := by
  have hnew : ∀ id t', w.store.books.transfers.lookup id = some t' → t'.kind = .lockMint →
      t'.origin ≠ t.origin := by
    intro id t' ht' hkind heq
    have hlocked := h.locked id t' ht' hkind
    rw [heq, hfree] at hlocked
    cases hlocked
  refine ⟨fun id t' ht' hkind => ?_, fun id₁ id₂ t₁ t₂ ht₁ ht₂ hkind₁ hkind₂ horigin => ?_⟩
  · rw [hlocks, lookup_insert_eq]
    rw [htransfers, lookup_insert_eq] at ht'
    split at ht'
    · cases ht'
      rw [if_pos rfl]
    · rw [if_neg (hnew id t' ht' hkind)]
      exact h.locked id t' ht' hkind
  · rw [htransfers, lookup_insert_eq] at ht₁ ht₂
    split at ht₁
    · rename_i heq₁
      cases ht₁
      split at ht₂
      · rename_i heq₂
        rw [heq₁, heq₂]
      · exact absurd horigin.symm (hnew id₂ t₂ ht₂ hkind₂)
    · split at ht₂
      · cases ht₂
        exact absurd horigin (hnew id₁ t₁ ht₁ hkind₁)
      · exact h.unique id₁ id₂ t₁ t₂ ht₁ ht₂ hkind₁ hkind₂ horigin

theorem Locked.effect (h : Locked w) (ho : Ordered w) (he : Effect env w c w') : Locked w' := by
  cases he with
  | settled => exact h.kept rfl fun id t ht _ => ⟨t, ht, rfl, rfl, rfl, rfl, rfl⟩
  | initialized => exact h.kept rfl fun id t ht _ => ⟨t, ht, rfl, rfl, rfl, rfl, rfl⟩
  | locked _ _ hfree => exact h.opened hfree rfl rfl
  | @burned user source destination asset wrapped amount recipient config t ht hadm hfunds =>
    refine h.kept rfl fun id t₁ ht₁ hkind => ?_
    have ht₁ : (w.store.books.transfers.insert t.id t).lookup id = some t₁ := ht₁
    rw [lookup_insert_eq] at ht₁
    split at ht₁
    · cases ht₁
      rw [ht] at hkind
      cases hkind
    · exact ⟨t₁, ht₁, rfl, rfl, rfl, rfl, rfl⟩
  | approved _ _ ht => exact h.kept rfl fun id t₁ ht₁ _ => lookup_updated ho ht₁ ht rfl ⟨rfl, rfl, rfl, rfl, rfl⟩
  | minted _ _ _ ht => exact h.kept rfl fun id t₁ ht₁ _ => lookup_updated ho ht₁ ht rfl ⟨rfl, rfl, rfl, rfl, rfl⟩
  | unlocked _ _ _ ht => exact h.kept rfl fun id t₁ ht₁ _ => lookup_updated ho ht₁ ht rfl ⟨rfl, rfl, rfl, rfl, rfl⟩
  | failed _ _ _ ht => exact h.kept rfl fun id t₁ ht₁ _ => lookup_updated ho ht₁ ht rfl ⟨rfl, rfl, rfl, rfl, rfl⟩
  | retried _ _ _ ht => exact h.kept rfl fun id t₁ ht₁ _ => lookup_updated ho ht₁ ht rfl ⟨rfl, rfl, rfl, rfl, rfl⟩

theorem Locked.step (h : Locked w) (ho : Ordered w) (hs : Step host w ev w') : Locked w' := by
  obtain ⟨auth, c, -, -, he⟩ | ⟨-, hstore, -⟩ := step_effect hs
  · exact h.effect ho he
  · refine h.kept (by rw [hstore]) fun id t ht _ => ?_
    rw [hstore] at ht
    exact ⟨t, ht, rfl, rfl, rfl, rfl, rfl⟩

end Steps

/-! ## Whole runs -/

/-- The source transaction that the event, taken in the world, mints. -/
def mintedOrigin (host : Host) (e : World × Event) : Option Origin :=
  match e.2 with
  | .call _ (.executeLockMint _ id) =>
    if Accepted host e.1 e.2 then (e.1.store.books.transfers.lookup id).map (·.origin) else none
  | _ => none

section Runs

variable {host : Host} {hist : List (World × Event)} {w w' : World} {ev : Event}

/-- An event that mints finds an executable lock-mint and completes it. -/
theorem mintedOrigin_eq_some (ho : Ordered w) (hs : Step host w ev w') {origin : Origin}
    (h : mintedOrigin host (w, ev) = some origin) : ∃ id t t', w.store.books.transfers.lookup id = some t ∧
      t.kind = .lockMint ∧ t.status = .readyToExecute ∧ t.origin = origin ∧
      w'.store.books.transfers.lookup id = some t' ∧ t'.status = .completed ∧ SameTerms t t' := by
  unfold mintedOrigin at h
  split at h
  · rename_i auth admin id hev
    dsimp only at hev
    subst hev
    split at h
    · rename_i haccepted
      obtain ⟨t, ht, rfl⟩ := Option.map_eq_some_iff.mp h
      have hrun := haccepted.run
      rw [← hs.2] at hrun
      obtain ⟨config, t₁, consumed, -, -, -, ht₁, hkind, hready, rfl⟩ := executeLockMint_ok hrun
      obtain rfl : t = t₁ := Option.some.inj (ht.symm.trans ht₁)
      refine ⟨id, t, t.executed w.ledger.timestamp, ht, hkind, hready, rfl, ?_, rfl, rfl, rfl, rfl, rfl, rfl⟩
      show (w.store.books.transfers.insert t.id _).lookup id = _
      rw [lookup_insert_eq, ho.keyed id t ht, if_pos rfl]
    · cases h
  · cases h

/-- What was minted belongs to completed transfers, and nothing was minted twice. -/
structure MintedOnce (host : Host) (hist : List (World × Event)) (w : World) : Prop where
  ordered : Ordered w
  locked : Locked w
  completed : ∀ origin ∈ hist.filterMap (mintedOrigin host), ∃ id t,
    w.store.books.transfers.lookup id = some t ∧ t.kind = .lockMint ∧ t.status = .completed ∧ t.origin = origin
  once : (hist.filterMap (mintedOrigin host)).Nodup

theorem MintedOnce.step (h : MintedOnce host hist w) (hs : Step host w ev w') :
    MintedOnce host ((w, ev) :: hist) w' := by
  have hkept : ∀ origin ∈ hist.filterMap (mintedOrigin host), ∃ id t,
      w'.store.books.transfers.lookup id = some t ∧ t.kind = .lockMint ∧ t.status = .completed ∧
        t.origin = origin := by
    intro origin horigin
    obtain ⟨id, t, ht, hkind, hcompleted, rfl⟩ := h.completed origin horigin
    obtain ⟨t', ht', hterms⟩ := h.ordered.kept hs ht
    obtain ⟨t₁, ht₁, hcompleted'⟩ := h.ordered.completed hs ht hcompleted
    obtain rfl : t' = t₁ := Option.some.inj (ht'.symm.trans ht₁)
    exact ⟨id, t', ht', hterms.kind.trans hkind, hcompleted', hterms.origin⟩
  have hordered := h.ordered.step hs
  have hlocked := h.locked.step h.ordered hs
  cases hm : mintedOrigin host (w, ev) with
  | none =>
    rw [← List.filterMap_cons_none (l := hist) hm] at hkept
    refine ⟨hordered, hlocked, hkept, ?_⟩
    rw [List.filterMap_cons_none hm]
    exact h.once
  | some origin =>
    obtain ⟨id, t, t', ht, hkind, hready, rfl, ht', hcompleted, hterms⟩ := mintedOrigin_eq_some h.ordered hs hm
    refine ⟨hordered, hlocked, ?_, ?_⟩
    · rw [List.filterMap_cons_some hm]
      intro origin horigin
      rcases List.mem_cons.mp horigin with rfl | horigin
      · exact ⟨id, t', ht', hterms.kind.trans hkind, hcompleted, hterms.origin⟩
      · exact hkept origin horigin
    · rw [List.filterMap_cons_some hm]
      refine List.nodup_cons.mpr ⟨fun hmem => ?_, h.once⟩
      -- the transfer of an earlier mint would be this one, which was not completed
      obtain ⟨id₀, t₀, ht₀, hkind₀, hcompleted₀, horigin₀⟩ := h.completed _ hmem
      obtain rfl := h.locked.unique id₀ id t₀ t ht₀ ht hkind₀ hkind horigin₀
      rw [ht] at ht₀
      cases ht₀
      rw [hready] at hcompleted₀
      cases hcompleted₀

end Runs

/-- The supply and the balances agree with the transfers, and nothing was minted twice. -/
structure SupplyAccounted (host : Host) (hist : List (World × Event)) (w : World) : Prop where
  sum : w.store.books.totalMinted = Store.total id w.store.books.wrappedBalances
  nonneg : ∀ user asset, 0 ≤ wrappedBalance w (user, asset)
  flow : w.store.books.totalMinted + Store.total burnedAmount w.store.books.transfers =
    Store.total mintedAmount w.store.books.transfers
  once : (hist.filterMap (mintedOrigin host)).Nodup

theorem netTotal_true (w : World) : netTotal (fun _ => True) w =
    Store.total mintedAmount w.store.books.transfers - Store.total burnedAmount w.store.books.transfers := by
  have hneg := total_mul (-1) burnedAmount w.store.books.transfers
  have hadd := total_add mintedAmount (fun t => -1 * burnedAmount t) w.store.books.transfers
  have heq : netTotal (fun _ => True) w =
      Store.total (fun t => mintedAmount t + -1 * burnedAmount t) w.store.books.transfers := by
    refine total_congr fun id t _ => ?_
    simp [netOf, netAmount]
    omega
  omega

theorem balanced_of_run {host : Host} {ledger : Ledger} {w : World}
    (h : Reaches (Step host) (.deployed ledger) w) : Balanced w :=
  h.invariant (.deployed ledger) fun _ _ _ hb hs => hb.step hs

/-- In every run the supply is the sum of the balances, none of which is negative; it is what was minted less
what was burned; and no source transaction is minted twice. -/
theorem supply_accounted {host : Host} {ledger : Ledger} {hist : List (World × Event)} {w : World}
    (h : Trace (Step host) (.deployed ledger) hist w) : SupplyAccounted host hist w := by
  have hbalanced := balanced_of_run h.reaches
  have hinit : MintedOnce host [] (.deployed ledger) :=
    ⟨.deployed ledger, .deployed ledger, fun origin ho => (by cases ho), List.nodup_nil⟩
  have honce := h.invariant hinit fun _ _ _ _ hm hs => hm.step hs
  refine ⟨hbalanced.sum, fun user asset => hbalanced.nonneg (user, asset), ?_, honce.once⟩
  have hminted := hbalanced.minted
  rw [netTotal_true] at hminted
  omega

/-! ## Who moves the balances -/

/-- `a` keeps what it holds, and if it is the administrator, nothing is minted. -/
structure Unmoved (a : Address) (w w' : World) : Prop where
  held (asset : Bytes) : wrappedBalance w (a, asset) ≤ wrappedBalance w' (a, asset)
  minted : w.store.config.map (·.admin) = some a →
    w'.store.config.map (·.admin) = some a ∧ w'.store.books.totalMinted ≤ w.store.books.totalMinted

def Unsigned (a : Address) : Event → Prop
  | .call auth _ => auth a = false
  | .advance _ => True

section Authority

variable {env : Env} {host : Host} {w w' : World} {c : Call} {a : Address} {u : Unit}

theorem unmoved_of_invoke (hpos : Store.All (0 < ·.amount) w.store.books.transfers)
    (h : invoke env c w = (.ok u, w')) (hauth : env.auth a = false) : Unmoved a w w' := by
  cases invoke_effect h with
  | initialized hnone => exact ⟨fun _ => le_rfl, fun ha => by simp [hnone] at ha⟩
  | locked _ hadm => exact ⟨fun _ => le_rfl, fun ha => ⟨by rw [← ha, hadm.configured]; rfl, le_rfl⟩⟩
  | @burned user _ _ _ wrapped amount _ config t _ hadm =>
    obtain ⟨_, h⟩ := Tx.void_ok.mp h
    simp only [initiateBurnUnlock, bind_load_ok, Tx.bind_failIf_ok, bind_requireAuth_ok] at h
    have hne (asset : Bytes) : (a, asset) ≠ (user, wrapped) := by
      rintro ⟨⟩
      exact Bool.false_ne_true (hauth.symm.trans h.2.1)
    exact ⟨fun asset => by simp [wrappedBalance, hne],
      fun ha => ⟨by rw [← ha, hadm.configured]; rfl, Int.sub_le_self _ hadm.pos.le⟩⟩
  | @minted admin id config t _ hsigned hconfig hadmin ht =>
    have hamount : 0 < t.amount := hpos id t ht
    refine ⟨fun asset => ?_, fun ha => ?_⟩
    · by_cases hkey : (a, asset) = (t.user, t.wrappedAsset)
      · rw [hkey]
        simp [wrappedBalance, hamount.le]
      · simp [wrappedBalance, hkey]
    · rw [hconfig] at ha
      obtain rfl : admin = a := hadmin.symm.trans (Option.some.inj ha)
      exact absurd (hauth.symm.trans hsigned) Bool.false_ne_true
  | settled | approved | unlocked | failed | retried => exact ⟨fun _ => le_rfl, fun ha => ⟨ha, le_rfl⟩⟩

/-- In any run from any reachable state: who signs nothing keeps what it holds of every wrapped asset, and as long
as the administrator signs nothing, the supply does not grow. -/
theorem unmoved_of_unsigned {ledger : Ledger} (h : Reaches (Step host) (.deployed ledger) w)
    (hrun : Reaches (fun b ev b' => Unsigned a ev ∧ Step host b ev b') w w') : Unmoved a w w' := by
  refine (hrun.invariant (I := fun b => Balanced b ∧ Unmoved a w b)
    ⟨balanced_of_run h, fun _ => le_rfl, fun ha => ⟨ha, le_rfl⟩⟩ ?_).2
  rintro b ev b' ⟨hb, hkept⟩ ⟨hev, hs⟩
  refine ⟨hb.step hs, ?_⟩
  obtain ⟨-, rfl⟩ := hs
  cases ev with
  | advance => exact ⟨hkept.held, hkept.minted⟩
  | call auth c =>
    rcases Tx.exec_cases (invoke ⟨host, auth⟩ c) b with ⟨u, hr⟩ | hsame
    · have hmoved := unmoved_of_invoke hb.positive hr hev
      refine ⟨fun asset => (hkept.held asset).trans (hmoved.held asset), fun ha => ?_⟩
      obtain ⟨ha, hle⟩ := hkept.minted ha
      exact ⟨(hmoved.minted ha).1, (hmoved.minted ha).2.trans hle⟩
    · have hnext : next host b (.call auth c) = b := hsame
      rwa [hnext]

end Authority

namespace Sample

/-- One transfer is minted; its source transaction is tried again under another deployment id, and a part of
it is burned while a second transfer waits. -/
def mintAndBurn : List Event :=
  [lock 500 [7] 1, approve 4 1, approve 5 1, call (.executeLockMint admin 1),
    call (.setDeploymentId admin bob), lock 400 [7] 1, lock 200 [8] 1, burn 300]

/-- The transfer is minted once, and the supply is what is left of it. -/
theorem mint_and_burn_are_accounted :
    SupplyAccounted host (history mintAndBurn) (final mintAndBurn) ∧
      (final mintAndBurn).store.books.totalMinted = 200 ∧ (history mintAndBurn).length = 10 := by
  have hrun : Reaches.Along (next host) Allowed (.deployed ⟨0, 0⟩) (started mintAndBurn) := by decide +kernel
  exact ⟨supply_accounted (trace_of_allowed hrun), by decide +kernel, by decide +kernel⟩

/-- Alice burns what is left while the administrator waits. -/
def lastBurn : Event := .call (· = alice) (.initiateBurnUnlock alice .polygon .ethereum eth weth 200 [])

/-- Nothing is minted, and the administrator stays. -/
theorem supply_unmoved : Unmoved admin (final mintAndBurn) (next host (final mintAndBurn) lastBurn) :=
  unmoved_of_unsigned (trace_of_allowed (by decide +kernel)).reaches
    (.tail (.refl _) (i := lastBurn) ⟨rfl, trivial, rfl⟩)

end Sample

end CallStake.Bridge
