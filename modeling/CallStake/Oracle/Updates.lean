import CallStake.Oracle.Footprint

/-!
# Updates of a price

What `setPrice` and `updateWithExternalData` do, exactly.

* `deviation p q`: how far `q` is from `p`, in basis points. `Exceeds`: an update that trips the breaker.
* `World.Admits`: an update gets through. `World.withPrice`, `World.noted`: what is written then.
* `setPrice_ok`, `setPrice_of_admits`: `setPrice` trips the breaker, or stores the price. `updateWithExternalData_ok`:
  the reports of external oracles are stored without asking the breaker.
-/

namespace CallStake.Oracle

open Tx

/-- `|q - p| * 10000 / p`. -/
def deviation (p q : Int) : Int := (((q - p).natAbs : Int) * 10000).tdiv p

/-- The product in the deviation fits. -/
def Fits (p q : Int) : Prop := InRange (((q - p).natAbs : Int) * 10000)
  deriving Decidable

def World.feedPrice (w : World) (pair : AssetPair) : Option Int := (w.store.prices.feeds.lookup pair).map (·.price)

def World.tripped (w : World) (pair : AssetPair) : Prop := w.store.isTripped pair = true

instance (w : World) (pair : AssetPair) : Decidable (w.tripped pair) := inferInstanceAs (Decidable (_ = true))

section Update

variable {w w' : World} {pair : AssetPair} {price p : Int} {u : Unit}

theorem requireNotPaused_ok : requireNotPaused w = (.ok u, w') ↔ w.isPaused CAT_ALL = false ∧ w = w' := by
  rw [requireNotPaused, bind_gets_ok, failIf_ok, Bool.not_eq_true]

theorem bind_requireNotPaused_ok {β : Type} {b : β} {k : Unit → O β} :
    (requireNotPaused >>= k) w = (.ok b, w') ↔ w.isPaused CAT_ALL = false ∧ k () w = (.ok b, w') := by
  rw [bind_ok]
  constructor
  · rintro ⟨_, _, hr, hk⟩
    obtain ⟨hp, rfl⟩ := requireNotPaused_ok.mp hr
    exact ⟨hp, hk⟩
  · rintro ⟨hp, hk⟩
    exact ⟨(), w, requireNotPaused_ok.mpr ⟨hp, rfl⟩, hk⟩

theorem deviation_self (p : Int) : deviation p p = 0 := by simp [deviation]

theorem previousPrice_eq : w.store.previousPrice pair = some p ↔ w.feedPrice pair = some p ∧ 0 < p := by
  unfold Storage.previousPrice World.feedPrice
  cases w.store.prices.feeds.lookup pair with
  | none => simp
  | some feed =>
    simp only [Option.bind_some, Option.map_some, Option.some.injEq]
    split
    · rename_i hpos
      simp only [Option.some.injEq]
      constructor
      · rintro rfl
        exact ⟨rfl, hpos⟩
      · exact fun h => h.1
    · rename_i hle
      simp only [reduceCtorEq, false_iff, not_and]
      rintro rfl
      exact hle

/-- Where the product fits, so does the rest. -/
theorem bind_deviationBps_ok {β : Type} {b : β} {k : Int → O β} (hp : 0 < p) :
    (deviationBps price p p >>= k) w = (.ok b, w') ↔ Fits p price ∧ k (deviation p price) w = (.ok b, w') := by
  simp only [deviationBps, bind_assoc_eq, bind_plain_ok, bind_div_ok]
  constructor
  · rintro ⟨-, -, hfits, -, -, hk⟩
    exact ⟨hfits, hk⟩
  · rintro ⟨hfits, hk⟩
    have hquot := Int.ediv_le_self p (by omega : 0 ≤ ((price - p).natAbs : Int) * 10000)
    have hnonneg := Int.ediv_nonneg (by omega : 0 ≤ ((price - p).natAbs : Int) * 10000) hp.le
    rw [← Int.tdiv_eq_ediv_of_nonneg (by omega)] at hquot hnonneg
    unfold Fits InRange i128Min i128Max at *
    exact ⟨by omega, by omega, hfits, by omega, by omega, hk⟩

/-- The breaker trips. -/
def World.withTrip (w : World) (pair : AssetPair) : World :=
  { w with store.monitor.breakerTripped := w.store.monitor.breakerTripped.insert pair true }

/-- The deviation is compared by its low bits. -/
def Exceeds (w : World) (pair : AssetPair) (price : Int) : Prop :=
  w.store.thresholdBps pair ≠ 0 ∧ ∃ p, w.store.previousPrice pair = some p ∧ Fits p price ∧
    w.store.thresholdBps pair < asU32 (deviation p price)

/-- The update does not: its low bits are compared. -/
def World.Within (w : World) (pair : AssetPair) (price : Int) : Prop :=
  w.store.thresholdBps pair ≠ 0 → ∀ p, w.store.previousPrice pair = some p →
    Fits p price ∧ asU32 (deviation p price) ≤ w.store.thresholdBps pair

theorem checkAndTrip_ok {rejected : Bool} (h : checkAndTrip pair price w = (.ok rejected, w')) :
    ¬ w.tripped pair ∧ (rejected = true ∧ Exceeds w pair price ∧ w' = w.withTrip pair ∨
      rejected = false ∧ w' = w ∧ w.Within pair price) := by
  rw [checkAndTrip, bind_load_ok, bind_failIf_ok, bind_load_ok, bind_load_ok] at h
  obtain ⟨htripped, h⟩ := h
  refine ⟨htripped, ?_⟩
  cases hprev : w.store.previousPrice pair with
  | none =>
    rw [hprev] at h
    obtain ⟨rfl, rfl⟩ := Tx.pure_ok.mp h
    exact .inr ⟨rfl, rfl, fun _ p hp => by rw [hprev] at hp; cases hp⟩
  | some p =>
    rw [hprev] at h
    dsimp only at h
    split at h
    · rename_i hzero
      obtain ⟨rfl, rfl⟩ := Tx.pure_ok.mp h
      exact .inr ⟨rfl, rfl, fun hne => absurd hzero hne⟩
    · rename_i hne
      rw [compareAndTrip, bind_deviationBps_ok (previousPrice_eq.mp hprev).2] at h
      obtain ⟨hfits, h⟩ := h
      rw [bind_ok] at h
      obtain ⟨_, w₁, hwhen, h⟩ := h
      obtain ⟨rfl, rfl⟩ := Tx.pure_ok.mp h
      rw [when_ok] at hwhen
      split at hwhen
      · rename_i hlt
        rw [trip, setMonitor, modify_ok] at hwhen
        exact .inl ⟨decide_eq_true hlt, ⟨hne, p, hprev, hfits, hlt⟩, hwhen.symm⟩
      · rename_i hge
        refine .inr ⟨decide_eq_false hge, hwhen.symm, fun _ q hq => ?_⟩
        cases hprev.symm.trans hq
        exact ⟨hfits, not_lt.mp hge⟩

/-- An update that exceeds the threshold trips the breaker. -/
theorem checkAndTrip_trips (htripped : ¬ w.tripped pair) (hexceeds : Exceeds w pair price) :
    checkAndTrip pair price w = (.ok true, w.withTrip pair) := by
  obtain ⟨hne, p, hprev, hfits, hlt⟩ := hexceeds
  rw [checkAndTrip, bind_load_ok, bind_failIf_ok, bind_load_ok, bind_load_ok, hprev]
  refine ⟨htripped, ?_⟩
  dsimp only
  rw [if_neg hne, compareAndTrip, bind_deviationBps_ok (previousPrice_eq.mp hprev).2]
  refine ⟨hfits, ?_⟩
  rw [Tx.when, if_pos hlt, trip, setMonitor, bind_modify_ok, pure_ok]
  exact ⟨decide_eq_true hlt, rfl⟩

/-- An update that stays within the threshold is let through. -/
theorem checkAndTrip_passes (htripped : ¬ w.tripped pair) (hwithin : w.Within pair price) :
    checkAndTrip pair price w = (.ok false, w) := by
  rw [checkAndTrip, bind_load_ok, bind_failIf_ok, bind_load_ok, bind_load_ok]
  refine ⟨htripped, ?_⟩
  cases hprev : w.store.previousPrice pair with
  | none => rfl
  | some p =>
    dsimp only
    split
    · rfl
    · rename_i hne
      obtain ⟨hfits, hle⟩ := hwithin hne p hprev
      rw [compareAndTrip, bind_deviationBps_ok (previousPrice_eq.mp hprev).2, Tx.when, if_neg (by omega)]
      exact ⟨hfits, Tx.pure_ok.mpr ⟨decide_eq_false (by omega), rfl⟩⟩

/-! ### What is written -/

/-- The update counter of the pair has room. -/
def Storage.Countable (s : Storage) (pair : AssetPair) : Prop := (s.getMetadata pair).updateCount24h + 1 ≤ u32Max

instance (s : Storage) (pair : AssetPair) : Decidable (s.Countable pair) := inferInstanceAs (Decidable (_ ≤ _))

/-- `onPriceUpdate`. -/
def World.noted (w : World) (pair : AssetPair) : World :=
  { w with store.monitor := { w.store.monitor with
    metadata := w.store.monitor.metadata.insert pair
      ⟨w.ledger.timestamp, w.ledger.sequence, (w.store.getMetadata pair).updateCount24h + 1, false, .healthy⟩
    slaRecords := w.store.monitor.slaRecords.insert pair ((w.store.slaRecord pair).updated w.ledger.timestamp) } }

/-- The first bucket that is not pruned yet. -/
def Storage.prunedTo (s : Storage) (pair : AssetPair) : Nat := (s.monitor.pruned.lookup pair).getD 0

def Prices.withFeed (p : Prices) (pair : AssetPair) (price : Int) (now : Nat) : Prices :=
  { p with feeds := p.feeds.insert pair ⟨price, now⟩ }

/-- `setFeed`, `addAvailablePair` and `storePrice`. -/
def Prices.withPrice (p : Prices) (pair : AssetPair) (price : Int) (now pruned : Nat) : Prices :=
  { p.withFeed pair price now with
    pairsList := if pair ∈ p.pairsList then p.pairsList else p.pairsList ++ [pair]
    history := dropBuckets pair pruned (now / BUCKET_SIZE - MAX_BUCKETS)
      (p.history.insert (pair, now / BUCKET_SIZE) price) }

theorem onPriceUpdate_ok : onPriceUpdate pair w = (.ok u, w') ↔ w.store.Countable pair ∧ w.noted pair = w' := by
  rw [onPriceUpdate, bind_timestamp_ok, sequence, bind_gets_ok, bind_load_ok, plainU32, bind_ofOption_ok]
  constructor
  · rintro ⟨count, hcount, hr⟩
    split at hcount
    · rename_i hle
      cases hcount
      exact ⟨hle, (Prod.mk.inj hr).2⟩
    · cases hcount
  · rintro ⟨hle, rfl⟩
    exact ⟨_, if_pos hle, rfl⟩

/-- The buckets of the pair from one number up to another are dropped. -/
theorem lookup_dropBuckets (pair : AssetPair) (last target : Nat) (h : Store (AssetPair × Nat) Int)
    (k : AssetPair × Nat) : (dropBuckets pair last target h).lookup k =
      if k.1 = pair ∧ last ≤ k.2 ∧ k.2 < target then none else h.lookup k := by
  unfold dropBuckets
  induction hn : target - last generalizing last h with
  | zero =>
    rw [if_neg (by omega)]
    rfl
  | succ n ih =>
    rw [List.range'_succ, List.foldl_cons, ih (last + 1) _ (by omega)]
    by_cases hk : k = (pair, last)
    · subst hk
      rw [if_neg (by omega), AList.lookup_erase, if_pos ⟨rfl, by omega, by omega⟩]
    · rw [AList.lookup_erase_ne hk]
      have hne : k.1 = pair → k.2 ≠ last := fun h1 h2 => hk (Prod.ext h1 h2)
      refine if_congr ⟨fun h => ⟨h.1, by omega, h.2.2⟩, fun h => ⟨h.1, ?_, h.2.2⟩⟩ rfl rfl
      have := hne h.1
      omega

theorem dropBuckets_zero (pair : AssetPair) (last : Nat) (h : Store (AssetPair × Nat) Int) :
    dropBuckets pair last 0 h = h := by
  rw [dropBuckets, Nat.zero_sub]
  rfl

/-- The feed, the pair and the bucket are written, and old buckets are dropped. -/
def World.withPrice (w : World) (pair : AssetPair) (price : Int) : World :=
  { w with
    store.prices := w.store.prices.withPrice pair price w.ledger.timestamp (w.store.prunedTo pair)
    store.monitor.pruned :=
      if MAX_BUCKETS ≤ w.ledger.timestamp / BUCKET_SIZE then
        w.store.monitor.pruned.insert pair
          (max (w.store.prunedTo pair) (w.ledger.timestamp / BUCKET_SIZE - MAX_BUCKETS))
      else w.store.monitor.pruned }

theorem storePrice_eq (pair : AssetPair) (price : Int) (w : World) : storePrice pair price w =
    pruneOldData pair (w.ledger.timestamp / BUCKET_SIZE) { w with store.prices := { w.store.prices with
      history := w.store.prices.history.insert (pair, w.ledger.timestamp / BUCKET_SIZE) price } } := rfl

theorem acceptPrice_eq (pair : AssetPair) (price : Int) (w : World) :
    acceptPrice pair price w = onPriceUpdate pair (w.withPrice pair price) := by
  have hstore : acceptPrice pair price w = (storePrice pair price >>= fun _ => onPriceUpdate pair)
      { w with store.prices := { w.store.prices.withFeed pair price w.ledger.timestamp with
        pairsList := if pair ∈ w.store.prices.pairsList then w.store.prices.pairsList
          else w.store.prices.pairsList ++ [pair] } } := rfl
  rw [hstore]
  unfold World.withPrice Prices.withPrice
  by_cases hmany : MAX_BUCKETS ≤ w.ledger.timestamp / BUCKET_SIZE
  · rw [if_pos hmany, bind_of_ok (x := storePrice pair price)
      (by rw [storePrice_eq, pruneOldData, Tx.when, if_pos hmany]; rfl)]
    rfl
  · have htarget : w.ledger.timestamp / BUCKET_SIZE - MAX_BUCKETS = 0 := by omega
    rw [if_neg hmany, htarget, dropBuckets_zero, bind_of_ok (x := storePrice pair price)
      (by rw [storePrice_eq, pruneOldData, Tx.when, if_neg hmany]; rfl)]
    rfl

/-! ### The two ways -/

/-- An update that is stored. -/
structure World.Admits (w : World) (pair : AssetPair) (price : Int) : Prop where
  running : w.isPaused CAT_ALL = false
  positive : 0 < price
  untripped : ¬ w.tripped pair
  within : w.Within pair price
  countable : w.store.Countable pair

/-- An update that returned tripped the breaker, or was stored. -/
theorem setPrice_ok (h : setPrice pair price w = (.ok u, w')) :
    w.isPaused CAT_ALL = false ∧ 0 < price ∧ ¬ w.tripped pair ∧
      (Exceeds w pair price ∧ w' = w.withTrip pair ∨
        w.Admits pair price ∧ w' = (w.withPrice pair price).noted pair) := by
  rw [setPrice, bind_requireNotPaused_ok, bind_failIf_ok, bind_ok] at h
  obtain ⟨hpaused, hprice, rejected, w₁, hcheck, h⟩ := h
  have hpositive : 0 < price := by omega
  obtain ⟨htripped, ⟨rfl, hexceeds, rfl⟩ | ⟨rfl, rfl, hwithin⟩⟩ := checkAndTrip_ok hcheck
  · rw [Tx.when, if_neg (by simp), pure_ok] at h
    exact ⟨hpaused, hpositive, htripped, .inl ⟨hexceeds, h.2.symm⟩⟩
  · rw [Tx.when, if_pos rfl, acceptPrice_eq, onPriceUpdate_ok] at h
    exact ⟨hpaused, hpositive, htripped, .inr ⟨⟨hpaused, hpositive, htripped, hwithin, h.1⟩, h.2.symm⟩⟩

theorem setPrice_of_admits (h : w.Admits pair price) :
    setPrice pair price w = (.ok (), (w.withPrice pair price).noted pair) := by
  rw [setPrice, bind_requireNotPaused_ok, bind_failIf_ok, bind_ok]
  have hpositive := h.positive
  refine ⟨h.running, by omega, false, w, checkAndTrip_passes h.untripped h.within, ?_⟩
  rw [Tx.when, if_pos rfl, acceptPrice_eq, onPriceUpdate_ok]
  exact ⟨h.countable, rfl⟩

theorem setPrice_trips (hpaused : w.isPaused CAT_ALL = false) (hprice : 0 < price) (htripped : ¬ w.tripped pair)
    (hexceeds : Exceeds w pair price) : setPrice pair price w = (.ok (), w.withTrip pair) := by
  rw [setPrice, bind_requireNotPaused_ok, bind_failIf_ok, bind_ok]
  refine ⟨hpaused, by omega, true, _, checkAndTrip_trips htripped hexceeds, ?_⟩
  rw [Tx.when, if_neg (by simp), pure_ok]
  exact ⟨rfl, rfl⟩

/-- The feed of a pair is written. -/
def World.withFeed (w : World) (pair : AssetPair) (price : Int) : World :=
  { w with store.prices := w.store.prices.withFeed pair price w.ledger.timestamp }

/-- Reports are stored where their average exists and the counter has room. -/
theorem updateWithExternalData_ok {prices : List ExternalPrice} {q : Int} :
    updateWithExternalData prices w = (.ok q, w') ↔
      externalPrice w.store w.ledger.timestamp prices = .ok q ∧ ∃ first, prices.head? = some first ∧
        w.store.Countable first.assetPair ∧ w' = (w.withFeed first.assetPair q).noted first.assetPair := by
  rw [updateWithExternalData, processExternalPrices]
  simp only [bind_assoc_eq]
  rw [bind_failIf_ok, bind_timestamp_ok, bind_load_ok, bind_ofExcept_ok]
  cases prices with
  | nil => simp
  | cons first rest =>
    have hrun : ∀ price, ((setFeed first.assetPair price >>= fun _ => onPriceUpdate first.assetPair >>= fun _ =>
        pure price) w = (.ok q, w')) ↔ price = q ∧ w.store.Countable first.assetPair ∧
          w' = (w.withFeed first.assetPair price).noted first.assetPair := by
      intro price
      rw [setFeed, bind_assoc_eq, bind_timestamp_ok, setPrices, bind_modify_ok, bind_ok]
      constructor
      · rintro ⟨_, w₂, hnoted, hr⟩
        obtain ⟨rfl, rfl⟩ := Tx.pure_ok.mp hr
        obtain ⟨hcount, rfl⟩ := onPriceUpdate_ok.mp hnoted
        exact ⟨rfl, hcount, rfl⟩
      · rintro ⟨rfl, hcount, rfl⟩
        exact ⟨(), _, onPriceUpdate_ok.mpr ⟨hcount, rfl⟩, rfl⟩
    simp only [List.head?_cons, Option.some.injEq]
    constructor
    · rintro ⟨-, price, hprice, hr⟩
      obtain ⟨rfl, hcount, rfl⟩ := (hrun price).mp hr
      exact ⟨hprice, first, rfl, hcount, rfl⟩
    · rintro ⟨hprice, _, rfl, hcount, rfl⟩
      exact ⟨List.cons_ne_nil _ _, q, hprice, (hrun q).mpr ⟨rfl, hcount, rfl⟩⟩

end Update

end CallStake.Oracle
