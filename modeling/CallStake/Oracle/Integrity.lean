import CallStake.Oracle.Updates

/-!
# Who can change the prices

The feeds, quotes, history, base currency, pairs and decimals should only change by a call that someone the oracle
trusts has authorized.

* `Privileged`: the administrator, a registered oracle, a source with weight, the guardian, the governance
  contract. `Unauthorized`: nobody of them authorized the call.
* `Sample.anyone_sets_prices`: four entry points ask nobody, although the base currency is documented as for the
  administrator only.
* `Prices.Same`: what is read of the prices is the same. `Call.Keeps`: a call of one of the four entry points, or a
  setup, is refused, or what it would store is stored already. `prices_kept_iff`: it changes no prices then, and only
  then; any other call without authorization changes none.
-/

namespace CallStake.Oracle

open Tx

def Privileged (s : Storage) (a : Address) : Prop :=
  s.access.admin = some a ∨ a ∈ s.panel.oracles ∨ s.oracleWeight a ≠ 0 ∨ s.access.guardian = some a ∨
    s.access.governanceAddress = some a

def Unauthorized (s : Storage) (auth : Auth) : Prop := ∀ a, auth a = true → ¬ Privileged s a

/-- Everything reads the same. -/
structure Prices.Same (p p' : Prices) : Prop where
  feeds : ∀ pair, p'.feeds.lookup pair = p.feeds.lookup pair
  quotes : ∀ pair, p'.quotes.lookup pair = p.quotes.lookup pair
  history : ∀ k, p'.history.lookup k = p.history.lookup k
  baseCurrency : p'.baseCurrency = p.baseCurrency
  pairsList : p'.pairsList = p.pairsList
  feedDecimals : ∀ pair, p'.feedDecimals.lookup pair = p.feedDecimals.lookup pair

/-- The update is stored already, and no bucket is left to drop. -/
structure World.Shows (w : World) (pair : AssetPair) (price : Int) : Prop where
  feed : w.store.prices.feeds.lookup pair = some ⟨price, w.ledger.timestamp⟩
  listed : pair ∈ w.store.prices.pairsList
  bucket : w.store.prices.history.lookup (pair, w.ledger.timestamp / BUCKET_SIZE) = some price
  dropped : ∀ n, w.store.prunedTo pair ≤ n → n < w.ledger.timestamp / BUCKET_SIZE - MAX_BUCKETS →
    w.store.prices.history.lookup (pair, n) = none

/-- What the call would store, if it is not refused, is stored already. -/
def Call.Keeps (w : World) : Call → Prop
  | .initializeOracle _ baseCurrency =>
    w.store.access.admin = none → w.store.prices.baseCurrency = some baseCurrency
  | .setBaseCurrency asset => w.store.prices.baseCurrency = some asset
  | .addPair pair => pair ∈ w.store.prices.pairsList
  | .setPrice pair price => w.Admits pair price → w.Shows pair price
  | .updateWithExternalData prices => ∀ price, externalPrice w.store w.ledger.timestamp prices = .ok price →
    ∀ first ∈ prices.head?, w.store.Countable first.assetPair →
      w.store.prices.feeds.lookup first.assetPair = some ⟨price, w.ledger.timestamp⟩
  | _ => True

section Gates

variable {w w' : World} {auth : Auth} {u : Unit}

theorem requireAdmin_ok {a : Address} : requireAdmin a w = (.ok u, w') ↔ w.store.access.admin = some a ∧ w = w' := by
  rw [requireAdmin, bind_load_ok, bind_ofOption_ok]
  simp only [failIf_ok, not_not]
  constructor
  · rintro ⟨_, hadmin, rfl, rfl⟩
    exact ⟨hadmin, rfl⟩
  · rintro ⟨hadmin, rfl⟩
    exact ⟨a, hadmin, rfl, rfl⟩

theorem bind_requireAdmin_ok {β : Type} {b : β} {a : Address} {k : Unit → O β} :
    (requireAdmin a >>= k) w = (.ok b, w') ↔ w.store.access.admin = some a ∧ k () w = (.ok b, w') := by
  rw [bind_ok]
  constructor
  · rintro ⟨_, _, hr, hk⟩
    obtain ⟨hadmin, rfl⟩ := requireAdmin_ok.mp hr
    exact ⟨hadmin, hk⟩
  · rintro ⟨hadmin, hk⟩
    exact ⟨(), w, requireAdmin_ok.mpr ⟨hadmin, rfl⟩, hk⟩

/-- A setter returned: the administrator had authorized it. -/
theorem adminThenAuth_ok {a : Address} {write : O Unit} (h : adminThenAuth auth a write w = (.ok u, w')) :
    w.store.access.admin = some a ∧ auth a = true ∧ write w = (.ok u, w') := by
  rwa [adminThenAuth, bind_requireAdmin_ok, bind_requireAuth_ok] at h

theorem authThenAdmin_ok {a : Address} {write : O Unit} (h : authThenAdmin auth a write w = (.ok u, w')) :
    auth a = true ∧ w.store.access.admin = some a ∧ write w = (.ok u, w') := by
  rwa [authThenAdmin, bind_requireAuth_ok, bind_requireAdmin_ok] at h

/-- A quote that was accepted: the source authorized it and has weight, the price is positive, and the fresh
quotes are kept. -/
theorem submitPairPrice_ok {source : Address} {pair : AssetPair} {price : Int} {confidence : Nat}
    (h : submitPairPrice auth source pair price confidence w = (.ok u, w')) :
    auth source = true ∧ 0 < price ∧ w.store.oracleWeight source ≠ 0 ∧ w' = { w with
      store.prices.quotes := w.store.prices.quotes.insert pair
        (w.freshQuotes pair ++ [⟨pair, price, w.ledger.timestamp, source, confidence⟩]) } := by
  rw [submitPairPrice, bind_requireNotPaused_ok, bind_requireAuth_ok, bind_failIf_ok, bind_load_ok,
    bind_failIf_ok, bind_load_ok, bind_failIf_ok, bind_gets_ok, bind_ok] at h
  obtain ⟨-, hauth, hprice, -, hweight, _, w₁, hcheck, h⟩ := h
  -- the check only reads
  obtain rfl : w = w₁ := Tx.Within.of_run (R := (· = ·)) inferInstance hcheck
  rw [bind_timestamp_ok, setPrices, modify_ok] at h
  exact ⟨hauth, by omega, hweight, h.symm⟩

end Gates

section Same

variable {p p' : Prices} {w : World} {pair : AssetPair} {price : Int}

theorem Prices.Same.refl (p : Prices) : p.Same p := ⟨fun _ => rfl, fun _ => rfl, fun _ => rfl, rfl, rfl, fun _ => rfl⟩

theorem same_withFeed {now : Nat} :
    p.Same (p.withFeed pair price now) ↔ p.feeds.lookup pair = some ⟨price, now⟩ := by
  constructor
  · intro h
    have hfeed := h.feeds pair
    rw [Prices.withFeed, AList.lookup_insert] at hfeed
    exact hfeed.symm
  · intro h
    refine { Prices.Same.refl p with feeds := fun pair' => ?_ }
    rw [Prices.withFeed, Store.lookup_insert_eq]
    split
    · rename_i heq
      rw [heq, h]
    · rfl

/-- An update is not seen where it shows already. -/
theorem same_withPrice : w.store.prices.Same (w.withPrice pair price).store.prices ↔ w.Shows pair price := by
  have hhistory : ∀ k, (w.withPrice pair price).store.prices.history.lookup k =
      if k.1 = pair ∧ w.store.prunedTo pair ≤ k.2 ∧ k.2 < w.ledger.timestamp / BUCKET_SIZE - MAX_BUCKETS then none
      else if k = (pair, w.ledger.timestamp / BUCKET_SIZE) then some price
      else w.store.prices.history.lookup k := by
    intro k
    rw [← Store.lookup_insert_eq]
    exact lookup_dropBuckets ..
  constructor
  · intro h
    refine ⟨same_withFeed.mp { Prices.Same.refl _ with feeds := h.feeds }, ?_, ?_, fun n hle hlt => ?_⟩
    · by_contra hnot
      have hlist := h.pairsList
      rw [World.withPrice, Prices.withPrice] at hlist
      simp [hnot] at hlist
    · have hbucket := h.history (pair, w.ledger.timestamp / BUCKET_SIZE)
      rw [hhistory, if_neg (by omega), if_pos rfl] at hbucket
      exact hbucket.symm
    · have hbucket := h.history (pair, n)
      rw [hhistory, if_pos ⟨rfl, hle, hlt⟩] at hbucket
      exact hbucket.symm
  · intro h
    refine ⟨(same_withFeed.mpr h.feed).feeds, fun _ => rfl, fun k => ?_, rfl, if_pos h.listed, fun _ => rfl⟩
    rw [hhistory]
    obtain ⟨pair', n⟩ := k
    split
    · rename_i hdropped
      obtain ⟨rfl, hle, hlt⟩ := hdropped
      exact (h.dropped n hle hlt).symm
    · split
      · rename_i heq
        rw [heq, h.bucket]
      · rfl

end Same

section Writers

variable {w : World} {pair : AssetPair}

theorem setPrice_keeps_iff (price : Int) :
    w.store.prices.Same ((setPrice pair price).exec w).store.prices ↔ (w.Admits pair price → w.Shows pair price) := by
  by_cases hadmits : w.Admits pair price
  · rw [exec_of_ok (setPrice_of_admits hadmits), imp_iff_right hadmits]
    exact same_withPrice
  · refine iff_of_true ?_ fun h => absurd h hadmits
    rcases exec_cases (setPrice pair price) w with ⟨u, hok⟩ | hsame
    · obtain ⟨-, -, -, ⟨-, hw⟩ | ⟨h, -⟩⟩ := setPrice_ok hok
      · rw [hw]
        exact .refl _
      · exact absurd h hadmits
    · rw [hsame]
      exact .refl _

theorem updateWithExternalData_keeps_iff (prices : List ExternalPrice) :
    w.store.prices.Same ((Tx.void (updateWithExternalData prices)).exec w).store.prices ↔
      Call.Keeps w (.updateWithExternalData prices) := by
  rcases exec_cases (Tx.void (updateWithExternalData prices)) w with ⟨u, hok⟩ | hsame
  · obtain ⟨price, hr⟩ := Tx.void_ok.mp hok
    obtain ⟨hprice, first, hfirst, hcount, hw⟩ := updateWithExternalData_ok.mp hr
    rw [hw]
    refine same_withFeed.trans
      ⟨fun h price' hprice' first' hfirst' _ => ?_, fun h => h price hprice first hfirst hcount⟩
    cases hprice.symm.trans hprice'
    cases hfirst.symm.trans hfirst'
    exact h
  · rw [hsame]
    refine iff_of_true (.refl _) fun price hprice first hfirst hcount => ?_
    -- a call that is not refused stores its price
    have hr := updateWithExternalData_ok.mpr ⟨hprice, first, hfirst, hcount, rfl⟩
    rw [exec_of_ok (void_ok (u := ()).mpr ⟨_, hr⟩)] at hsame
    rw [← hsame]
    exact AList.lookup_insert ..

end Writers

/-- Without an authorization, a call changes no prices exactly when it is refused, or stores what is stored. -/
theorem prices_kept_iff {w : World} {env : Env} {c : Call} (hunauth : Unauthorized w.store env.auth) :
    w.store.prices.Same (next w (.call env c)).store.prices ↔ c.Keeps w := by
  have hkept : .prices ∉ c.writes → (next w (.call env c)).store.prices = w.store.prices :=
    ((invoke_within env c).exec w).prices
  rw [next] at hkept ⊢
  -- four calls ask nobody, and a setup asks who is stored; the others ask first or write no prices
  cases c with
  | setPrice _ price => exact setPrice_keeps_iff price
  | updateWithExternalData prices => exact updateWithExternalData_keeps_iff prices
  | setBaseCurrency =>
    exact ⟨fun h => h.baseCurrency.symm, fun h => { Prices.Same.refl w.store.prices with baseCurrency := h.symm }⟩
  | addPair pair =>
    refine ⟨fun h => ?_, fun h => { Prices.Same.refl w.store.prices with pairsList := if_pos h }⟩
    have hlist := h.pairsList
    change (if pair ∈ w.store.prices.pairsList then _ else _ ++ _) = _ at hlist
    show pair ∈ w.store.prices.pairsList
    simpa using hlist
  | initializeOracle admin baseCurrency =>
    have hrun : invoke env (.initializeOracle admin baseCurrency) w =
        (failIf (w.store.access.admin.isSome = true) .panic >>= fun _ => do
          setAccess fun a => { a with admin := some admin }
          setPrices fun p => { p with baseCurrency := some baseCurrency }
          setAccess fun a => { a with contractVersion := ORACLE_VERSION }) w := rfl
    rw [Tx.exec, hrun]
    cases hadmin : w.store.access.admin with
    | some stored => exact iff_of_true (.refl _) fun hnone => by rw [hadmin] at hnone; cases hnone
    | none =>
      exact ⟨fun h _ => h.baseCurrency.symm,
        fun h => { Prices.Same.refl w.store.prices with baseCurrency := (h hadmin).symm }⟩
  | setFeedDecimals caller pair decimals =>
    refine iff_of_true ?_ trivial
    rcases exec_cases (invoke env (.setFeedDecimals caller pair decimals)) w with ⟨u, hok⟩ | hsame
    · obtain ⟨hadmin, hauth, -⟩ := adminThenAuth_ok hok
      exact absurd (.inl hadmin) (hunauth caller hauth)
    · rw [hsame]
      exact .refl _
  | submitPairPrice source pair price confidence =>
    refine iff_of_true ?_ trivial
    rcases exec_cases (invoke env (.submitPairPrice source pair price confidence)) w with ⟨u, hok⟩ | hsame
    · obtain ⟨hauth, -, hweight, -⟩ := submitPairPrice_ok hok
      exact absurd (.inr (.inr (.inl hweight))) (hunauth source hauth)
    · rw [hsame]
      exact .refl _
  | _ =>
    rw [hkept (by simp [Call.writes])]
    exact iff_of_true (.refl _) trivial

namespace Sample

def admin : Address := ⟨1⟩
def mallory : Address := ⟨2⟩
def contract : Address := ⟨3⟩
def xlm : Asset := ⟨[88, 76, 77], none⟩
def usdc : Asset := ⟨[85, 83, 68, 67], some ⟨4⟩⟩
def pair : AssetPair := ⟨usdc, xlm⟩

/-- Only the given address authorized the call. -/
def signedBy (a : Address) : Env := ⟨fun b => decide (b = a), contract⟩

/-- An oracle that is set up, at time 1000. -/
def ready : World := next (.deployed ⟨1000, 10⟩) (.call (signedBy admin) (.initializeOracle admin xlm))

theorem reaches_ready : Reaches Step (.deployed ⟨1000, 10⟩) ready :=
  Reaches.tail (.refl _) (i := .call (signedBy admin) (.initializeOracle admin xlm)) ⟨trivial, rfl⟩

/-- Somebody the oracle does not know. -/
theorem mallory_unauthorized : Unauthorized ready.store (signedBy mallory).auth := by
  intro a ha
  obtain rfl : a = mallory := of_decide_eq_true ha
  unfold Privileged
  decide +kernel

/-- A price that is not positive is turned down, a positive one is stored. -/
theorem positive_price_is_stored :
    ready.store.prices.Same (next ready (.call (signedBy mallory) (.setPrice pair 0))).store.prices ∧
    ¬ ready.store.prices.Same (next ready (.call (signedBy mallory) (.setPrice pair 5))).store.prices := by
  refine ⟨(prices_kept_iff mallory_unauthorized).mpr fun h => absurd h.positive (by decide), fun h => ?_⟩
  have hshows := (prices_kept_iff mallory_unauthorized).mp h
    ⟨by decide +kernel, by decide, by decide +kernel, fun hne => absurd (by decide +kernel) hne, by decide +kernel⟩
  exact absurd hshows.feed (by decide +kernel)

/-- A report on the pair that nobody signed. -/
def report (price : Int) : ExternalPrice := ⟨pair, price, 1000, 1, [], mallory, 7⟩

/-- The storage of prices after a call that only the stranger authorized. -/
def after (c : Call) : Prices := (next ready (.call (signedBy mallory) c)).store.prices

/-- Anyone sets the base currency, adds a pair, and sets the price of a pair, by either entry point. -/
theorem anyone_sets_prices :
    (¬ ∀ ledger w, Reaches Step (.deployed ledger) w → ∀ env c, Unauthorized w.store env.auth →
      w.store.prices.Same (next w (.call env c)).store.prices) ∧
    (after (.setBaseCurrency usdc)).baseCurrency = some usdc ∧ (after (.addPair pair)).pairsList = [pair] ∧
    (after (.setPrice pair 5)).feeds.lookup pair = some ⟨5, 1000⟩ ∧
    (after (.updateWithExternalData [report 5])).feeds.lookup pair = some ⟨5, 1000⟩ := by
  refine ⟨fun h => ?_, by decide +kernel, by decide +kernel, by decide +kernel, by decide +kernel⟩
  have hsame := (h _ _ reaches_ready (signedBy mallory) (.setBaseCurrency usdc) mallory_unauthorized).baseCurrency
  exact absurd hsame (by decide +kernel)

end Sample

end CallStake.Oracle
