import CallStake.Lib.Trace
import CallStake.Oracle.Integrity

/-!
# The breaker against deviating updates

With a threshold for a pair, an update that deviates from the stored price by more than it should not be stored,
and trip the breaker; a tripped breaker should keep the price, and nobody should read it, until it is reset.

* `Guarded`: the property, of a step; `Unreadable`: of a state.
* `Sample.spikes_get_through`: the contract does not have it. The reports of external oracles are stored without
  asking the breaker, and a deviation is compared by its low 32 bits only.
* `Safe`: neither happens. `FeedMove`: what a step does to a feed and its breaker. `breaker_of_safe`: in a run of safe
  steps, the breaker does what it should.
-/

namespace CallStake.Oracle

open Tx

/-! ## The property -/

/-- A price that changes stays within the threshold. An update beyond it is not stored, and trips the breaker. -/
structure Guarded (pair : AssetPair) (T : Nat) (a : World) (ev : Event) (b : World) : Prop where
  change : ∀ p q, a.feedPrice pair = some p → 0 < p → b.feedPrice pair = some q → deviation p q ≤ T
  stored : ∀ env price p, ev = .call env (.setPrice pair price) → a.feedPrice pair = some p → 0 < p →
    T < deviation p price → b.feedPrice pair = a.feedPrice pair
  trips : ∀ env price p, ev = .call env (.setPrice pair price) → a.feedPrice pair = some p → 0 < p →
    Fits p price → T < deviation p price → b.tripped pair

/-- Neither view returns a price. -/
def Unreadable (pair : AssetPair) (w : World) : Prop :=
  ∀ contract, getPriceWithConfidence contract pair w = (.error (err .priceDeviationBreakerTripped), w) ∧
    getPrice contract pair w = (.error (err .priceDeviationBreakerTripped), w)

/-! ## The condition -/

/-- An update beyond the threshold comes while the breaker is tripped, or it gets to the comparison and the low
32 bits of its deviation are beyond the threshold too. The average of the reports for the pair is within the
threshold of the stored price, and is the stored price while the breaker is tripped. -/
def Safe (pair : AssetPair) (T : Nat) (w : World) : Event → Prop
  | .call _ (.setPrice pair' price) => pair' = pair → ∀ p ∈ w.feedPrice pair, 0 < p → Fits p price →
    T < deviation p price → w.tripped pair ∨ w.isPaused CAT_ALL = false ∧ 0 < price ∧ T < asU32 (deviation p price)
  | .call _ (.updateWithExternalData prices) => ∀ first ∈ prices.head?, first.assetPair = pair →
    ∀ q, externalPrice w.store w.ledger.timestamp prices = .ok q →
      (w.tripped pair → w.feedPrice pair = some q) ∧
      ∀ p ∈ w.feedPrice pair, 0 < p → deviation p q ≤ T
  | _ => True

/-- A step that leaves the threshold as it is. -/
def SteadyStep (pair : AssetPair) (T : Nat) (a : World) (ev : Event) (b : World) : Prop :=
  Step a ev b ∧ a.store.thresholdBps pair = T ∧ b.store.thresholdBps pair = T

def SafeStep (pair : AssetPair) (T : Nat) (a : World) (ev : Event) (b : World) : Prop :=
  SteadyStep pair T a ev b ∧ Safe pair T a ev

/-- The administrator resets the breaker. -/
def Resets (pair : AssetPair) (w : World) (ev : Event) : Prop :=
  ∃ env admin, ev = .call env (.resetUpdateDeviationBreaker admin pair) ∧ env.auth admin = true ∧
    w.store.access.admin = some admin

/-! ## What an update does -/

section Update

variable {w w' : World} {pair : AssetPair} {price : Int}

/-- The feeds and the breaker are the same. -/
structure SameFeeds (a b : World) : Prop where
  feeds : b.store.prices.feeds = a.store.prices.feeds
  tripped : b.store.monitor.breakerTripped = a.store.monitor.breakerTripped

instance : IsPreorder World SameFeeds where
  refl _ := ⟨rfl, rfl⟩
  trans _ _ _ h h' := ⟨h'.feeds.trans h.feeds, h'.tripped.trans h.tripped⟩

-- the proofs that instance resolution builds grow with the length of a computation
set_option synthInstance.maxSize 1000000000

instance : KeepsFeeds SameFeeds := by constructor <;> exact fun _ => ⟨fun _ => ⟨rfl, rfl⟩⟩

instance : KeepsBreaker SameFeeds := by constructor <;> exact fun _ => ⟨fun _ => ⟨rfl, rfl⟩⟩

instance (f : Access → Access) : Tx.Within SameFeeds (setAccess f) := ⟨fun _ => ⟨rfl, rfl⟩⟩

/-- The feed is written and the breaker is as before. -/
structure Updated (pair : AssetPair) (price : Int) (w w' : World) : Prop where
  feeds : w'.store.prices.feeds = w.store.prices.feeds.insert pair ⟨price, w.ledger.timestamp⟩
  tripped : w'.store.monitor.breakerTripped = w.store.monitor.breakerTripped

theorem updated_withPrice (w : World) (pair : AssetPair) (price : Int) :
    Updated pair price w ((w.withPrice pair price).noted pair) := ⟨rfl, rfl⟩

theorem updated_withFeed (w : World) (pair : AssetPair) (price : Int) :
    Updated pair price w ((w.withFeed pair price).noted pair) := ⟨rfl, rfl⟩

theorem SameFeeds.feedPrice (h : SameFeeds w w') (pair : AssetPair) : w'.feedPrice pair = w.feedPrice pair := by
  rw [World.feedPrice, h.feeds, World.feedPrice]

theorem SameFeeds.tripped_iff (h : SameFeeds w w') (pair : AssetPair) : w'.tripped pair ↔ w.tripped pair := by
  rw [World.tripped, World.tripped, Storage.isTripped, h.tripped, Storage.isTripped]

theorem Updated.feedPrice (h : Updated pair price w w') (pair' : AssetPair) :
    w'.feedPrice pair' = if pair' = pair then some price else w.feedPrice pair' := by
  rw [World.feedPrice, h.feeds, Store.lookup_insert_eq, World.feedPrice]
  split <;> rfl

theorem Updated.tripped_iff (h : Updated pair price w w') (pair' : AssetPair) :
    w'.tripped pair' ↔ w.tripped pair' := by
  rw [World.tripped, World.tripped, Storage.isTripped, h.tripped, Storage.isTripped]

theorem withTrip_tripped (w : World) (pair pair' : AssetPair) :
    (w.withTrip pair).tripped pair' ↔ pair' = pair ∨ w.tripped pair' := by
  simp only [World.tripped, Storage.isTripped, World.withTrip, Store.lookup_insert_eq]
  by_cases h : pair' = pair <;> simp [h]

end Update

/-! ## Other calls -/

/-- Every other call leaves the feeds and the breaker alone, except for a reset. -/
theorem sameFeeds_of_call (env : Env) (c : Call) (w : World) (hset : ∀ pair price, c ≠ .setPrice pair price)
    (hext : ∀ prices, c ≠ .updateWithExternalData prices)
    (hreset : ∀ admin pair, c ≠ .resetUpdateDeviationBreaker admin pair) :
    SameFeeds w ((invoke env c).exec w) := by
  have hkept := (invoke_within env c).exec w
  cases c with
  | setPrice pair price => exact absurd rfl (hset pair price)
  | updateWithExternalData prices => exact absurd rfl (hext prices)
  | resetUpdateDeviationBreaker admin pair => exact absurd rfl (hreset admin pair)
  | submitPairPrice source pair price confidence =>
    rcases exec_cases (invoke env (.submitPairPrice source pair price confidence)) w with ⟨u, hok⟩ | hsame
    · obtain ⟨-, -, -, hw⟩ := submitPairPrice_ok hok
      rw [hw]
      exact ⟨rfl, rfl⟩
    · rw [hsame]
      exact ⟨rfl, rfl⟩
  | initializeOracle | setBaseCurrency | addPair | setFeedDecimals | convertToBase | checkOracleHeartbeat
  | findOptimalPath | setFeedSla =>
    refine Tx.Within.exec ?_ w
    simp only [invoke, initializeOracle, setBaseCurrency, addPair, setFeedDecimals, setFeedSla]
    infer_instance
  | _ =>
    exact ⟨congrArg Prices.feeds (hkept.prices (by simp [Call.writes])),
      congrArg Monitor.breakerTripped (hkept.monitor (by simp [Call.writes]))⟩

/-- A reset leaves the feeds alone, and the breaker of other pairs; it fails without the administrator. -/
theorem reset_exec (env : Env) (admin : Address) (pair : AssetPair) (w : World) :
    (((invoke env (.resetUpdateDeviationBreaker admin pair)).exec w).store.prices = w.store.prices) ∧
      ∀ pair', pair' ≠ pair ∨ ¬ (env.auth admin = true ∧ w.store.access.admin = some admin) →
        (((invoke env (.resetUpdateDeviationBreaker admin pair)).exec w).tripped pair' ↔ w.tripped pair') := by
  rcases exec_cases (invoke env (.resetUpdateDeviationBreaker admin pair)) w with ⟨u, hok⟩ | hsame
  · obtain ⟨hauth, hadmin, hwrite⟩ := authThenAdmin_ok hok
    rw [setMonitor, modify_ok] at hwrite
    rw [← hwrite]
    refine ⟨rfl, fun pair' hother => ?_⟩
    rcases hother with hne | hnot
    · simp only [World.tripped, Storage.isTripped, Store.lookup_insert_eq, if_neg hne]
    · exact absurd ⟨hauth, hadmin⟩ hnot
  · rw [hsame]
    exact ⟨rfl, fun _ _ => Iff.rfl⟩

/-! ## Steps -/

section Steps

variable {a b : World} {ev : Event} {pair : AssetPair} {T : Nat}

/-- What a step can do to the feed of a pair and its breaker. -/
inductive FeedMove (pair : AssetPair) (a : World) (ev : Event) (b : World) : Prop where
  | same (feed : b.feedPrice pair = a.feedPrice pair) (tripped : b.tripped pair ↔ a.tripped pair)
    (hset : ∀ env price, ev = .call env (.setPrice pair price) → b = a)
  | reset (feed : b.feedPrice pair = a.feedPrice pair)
    (h : Resets pair a ev)
  | tripping {env : Env} {price : Int} (h : ev = .call env (.setPrice pair price))
    (feed : b.feedPrice pair = a.feedPrice pair) (tripped : b.tripped pair)
  | updated {env : Env} {price : Int} (h : ev = .call env (.setPrice pair price))
    (hadmits : a.Admits pair price) (feed : b.feedPrice pair = some price) (tripped : b.tripped pair ↔ a.tripped pair)
  | reported {env : Env} {prices : List ExternalPrice} {first : ExternalPrice} {q : Int}
    (h : ev = .call env (.updateWithExternalData prices)) (hfirst : prices.head? = some first)
    (hpair : first.assetPair = pair) (hq : externalPrice a.store a.ledger.timestamp prices = .ok q)
    (feed : b.feedPrice pair = some q) (tripped : b.tripped pair ↔ a.tripped pair)

theorem feedMove_of_step (hs : Step a ev b) : FeedMove pair a ev b := by
  obtain ⟨-, rfl⟩ := hs
  cases ev with
  | advance => exact .same rfl Iff.rfl (by rintro _ _ ⟨⟩)
  | expire => exact .same rfl Iff.rfl (by rintro _ _ ⟨⟩)
  | call env c =>
    rw [next]
    -- three calls touch a feed or its breaker; the others keep both
    by_cases hset : ∃ pair' price, c = .setPrice pair' price
    · obtain ⟨pair', price, rfl⟩ := hset
      rcases exec_cases (invoke env (.setPrice pair' price)) a with ⟨u, hok⟩ | hsame
      · obtain ⟨-, -, -, ⟨-, hw⟩ | ⟨hadmits, hw⟩⟩ := setPrice_ok hok
        · rw [hw]
          by_cases heq : pair' = pair
          · subst heq
            exact .tripping rfl rfl ((withTrip_tripped a pair' pair').mpr (.inl rfl))
          · refine .same rfl ?_ ?_
            · rw [withTrip_tripped]
              exact or_iff_right (Ne.symm heq)
            · rintro _ _ ⟨⟩
              exact absurd rfl heq
        · have hw := hw ▸ updated_withPrice a pair' price
          by_cases heq : pair' = pair
          · subst heq
            refine .updated rfl hadmits ?_ (hw.tripped_iff pair')
            rw [hw.feedPrice, if_pos rfl]
          · refine .same ?_ (hw.tripped_iff pair) ?_
            · rw [hw.feedPrice, if_neg (Ne.symm heq)]
            · rintro _ _ ⟨⟩
              exact absurd rfl heq
      · rw [hsame]
        exact .same rfl Iff.rfl fun _ _ _ => rfl
    · by_cases hext : ∃ prices, c = .updateWithExternalData prices
      · obtain ⟨prices, rfl⟩ := hext
        rcases exec_cases (invoke env (.updateWithExternalData prices)) a with ⟨u, hok⟩ | hsame
        · obtain ⟨q, hok⟩ := Tx.void_ok.mp hok
          obtain ⟨hq, first, hfirst, -, hw⟩ := updateWithExternalData_ok.mp hok
          have hw := hw ▸ updated_withFeed a first.assetPair q
          by_cases heq : first.assetPair = pair
          · refine .reported rfl hfirst heq hq ?_ (hw.tripped_iff pair)
            rw [hw.feedPrice, if_pos heq.symm]
          · refine .same ?_ (hw.tripped_iff pair) (by rintro _ _ ⟨⟩)
            rw [hw.feedPrice, if_neg (Ne.symm heq)]
        · rw [hsame]
          exact .same rfl Iff.rfl fun _ _ _ => rfl
      · by_cases hreset : ∃ admin pair', c = .resetUpdateDeviationBreaker admin pair'
        · obtain ⟨admin, pair', rfl⟩ := hreset
          obtain ⟨hprices, htripped⟩ := reset_exec env admin pair' a
          have hfeed : ((invoke env (.resetUpdateDeviationBreaker admin pair')).exec a).feedPrice pair =
              a.feedPrice pair := by rw [World.feedPrice, hprices, World.feedPrice]
          by_cases heq : pair' = pair ∧ env.auth admin = true ∧ a.store.access.admin = some admin
          · obtain ⟨rfl, hauth⟩ := heq
            exact .reset hfeed ⟨env, admin, rfl, hauth⟩
          · refine .same hfeed (htripped pair ?_) (by rintro _ _ ⟨⟩)
            by_cases hpair : pair' = pair
            · exact .inr fun h => heq ⟨hpair, h⟩
            · exact .inl (Ne.symm hpair)
        · push Not at hset hext hreset
          have hsame := sameFeeds_of_call env c a hset hext hreset
          refine .same (hsame.feedPrice pair) (hsame.tripped_iff pair) ?_
          rintro _ price ⟨⟩
          exact absurd rfl (hset pair price)

theorem FeedMove.guarded (h : FeedMove pair a ev b) (hT : 0 < T) (hthreshold : a.store.thresholdBps pair = T)
    (hsafe : Safe pair T a ev) (hs : Step a ev b) : Guarded pair T a ev b where
  change p q hp hpos hq := by
    have hself : (0 : Int) ≤ T := by omega
    cases h with
    | same feed | reset feed | tripping h feed =>
      rw [feed, hp] at hq
      cases hq
      rwa [deviation_self]
    | updated h hadmits feed =>
      subst h
      rw [feed] at hq
      cases hq
      obtain ⟨hfits, hle⟩ := hadmits.within (by omega) p (previousPrice_eq.mpr ⟨hp, hpos⟩)
      by_contra hbeyond
      rcases hsafe rfl p hp hpos hfits (by omega) with htrip | ⟨-, -, hlow⟩
      · exact hadmits.untripped htrip
      · omega
    | reported h hfirst hpair hq' feed =>
      subst h
      rw [feed] at hq
      cases hq
      exact (hsafe _ hfirst hpair _ hq').2 p hp hpos
  stored env price p hev hp hpos hbeyond := by
    cases h with
    | same feed => exact feed
    | reset feed => exact feed
    | tripping _ feed => exact feed
    | updated h hadmits =>
      subst h
      cases hev
      obtain ⟨hfits, hle⟩ := hadmits.within (by omega) p (previousPrice_eq.mpr ⟨hp, hpos⟩)
      rcases hsafe rfl p hp hpos hfits hbeyond with htrip | ⟨-, -, hlow⟩
      · exact absurd htrip hadmits.untripped
      · omega
    | reported h =>
      subst h
      cases hev
  trips env price p hev hp hpos hfits hbeyond := by
    subst hev
    by_cases htripped : a.tripped pair
    · -- a tripped breaker turns the call down
      cases h with
      | same _ tripped => exact tripped.mpr htripped
      | reset _ h =>
        obtain ⟨_, _, h, -⟩ := h
        cases h
      | tripping _ _ tripped => exact tripped
      | updated _ hadmits => exact absurd htripped hadmits.untripped
      | reported h => cases h
    · obtain ⟨hpaused, hprice, hlow⟩ := (hsafe rfl p hp hpos hfits hbeyond).resolve_left htripped
      have hexceeds : Exceeds a pair price := ⟨by omega, p, previousPrice_eq.mpr ⟨hp, hpos⟩, hfits, by omega⟩
      obtain ⟨-, rfl⟩ := hs
      have hexec : next a (.call env (.setPrice pair price)) = a.withTrip pair :=
        exec_of_ok (setPrice_trips hpaused hprice htripped hexceeds)
      rw [hexec, withTrip_tripped]
      exact .inl rfl

/-- A tripped breaker holds the price until it is reset. -/
theorem FeedMove.held (h : FeedMove pair a ev b) (htripped : a.tripped pair) (hsafe : Safe pair T a ev)
    (hreset : ¬ Resets pair a ev) : b.tripped pair ∧ b.feedPrice pair = a.feedPrice pair := by
  cases h with
  | same feed tripped => exact ⟨tripped.mpr htripped, feed⟩
  | reset _ h => exact absurd h hreset
  | tripping _ feed tripped => exact ⟨tripped, feed⟩
  | updated _ hadmits => exact absurd htripped hadmits.untripped
  | reported h hfirst hpair hq feed tripped =>
    subst h
    exact ⟨tripped.mpr htripped, feed.trans ((hsafe _ hfirst hpair _ hq).1 htripped).symm⟩

theorem unreadable_of_tripped (h : a.tripped pair) : Unreadable pair a := by
  intro contract
  have hread : getPriceWithConfidence contract pair a = (.error (err .priceDeviationBreakerTripped), a) := by
    rw [getPriceWithConfidence, bind_error, guardTripped, bind_error]
    refine .inl (.inr ⟨_, a, rfl, ?_⟩)
    rw [failIf_error]
    exact ⟨h, rfl, rfl⟩
  refine ⟨hread, ?_⟩
  rw [getPrice, bind_error]
  exact .inl hread

end Steps

/-- In a run of safe steps with one threshold, every step is guarded; and since a state in which the breaker was
tripped, as long as it was not reset, the price has stayed and cannot be read. -/
theorem breaker_of_safe {w₀ w : World} {hist : List (World × Event)} {pair : AssetPair} {T : Nat} (hT : 0 < T)
    (hrun : Trace (SafeStep pair T) w₀ hist w) :
    Trace.Every (fun _ a ev => Guarded pair T a ev (next a ev)) hist ∧
      ∀ later earlier w₁, hist = later ++ earlier → Trace (SafeStep pair T) w₁ later w → w₁.tripped pair →
        (∀ e ∈ later, ¬ Resets pair e.1 e.2) →
        w.tripped pair ∧ w.feedPrice pair = w₁.feedPrice pair ∧ Unreadable pair w := by
  constructor
  · refine hrun.every_of_invariant (I := fun _ _ => True) trivial (fun _ _ _ _ _ _ => trivial) ?_
    rintro - a ev b - ⟨⟨hs, hthreshold, -⟩, hsafe⟩
    obtain ⟨-, rfl⟩ := id hs
    exact (feedMove_of_step hs).guarded hT hthreshold hsafe hs
  · rintro later - w₁ - hlater htripped hreset
    have hheld : w.tripped pair ∧ w.feedPrice pair = w₁.feedPrice pair := by
      clear hrun
      induction hlater with
      | nil => exact ⟨htripped, rfl⟩
      | snoc _ hs ih =>
        obtain ⟨ha, hfeed⟩ := ih fun e he => hreset e (List.mem_cons_of_mem _ he)
        obtain ⟨hb, hfeed'⟩ := (feedMove_of_step hs.1.1).held ha hs.2 (hreset _ (List.mem_cons_self ..))
        exact ⟨hb, hfeed'.trans hfeed⟩
    exact ⟨hheld.1, hheld.2, unreadable_of_tripped hheld.1⟩

namespace Sample

/-- The administrator sets a threshold of 5%, and the price is 10000. -/
def setup : List Event :=
  [.call (signedBy admin) (.setUpdateDeviationThreshold admin pair 500),
    .call (signedBy mallory) (.setPrice pair 10000)]

def armed : World := setup.foldl next ready

theorem reaches_armed : Reaches Step (.deployed ⟨1000, 10⟩) armed :=
  reaches_ready.trans (Reaches.of_along (by decide +kernel : Reaches.Along next Allowed ready setup))

def small : Event := .call (signedBy mallory) (.setPrice pair 10300)
def large : Event := .call (signedBy mallory) (.setPrice pair 20600)
def reportLarge : Event := .call (signedBy mallory) (.updateWithExternalData [report 20600])

/-- A deviation of `2 ^ 32` basis points. -/
def huge : Event := .call (signedBy mallory) (.setPrice pair 4294977296)

/-- An update of 3% is stored; one of 100% trips the breaker. -/
theorem breaker_trips :
    Guarded pair 500 armed small (next armed small) ∧
      (next (next armed small) large).tripped pair ∧
      (next (next armed small) large).feedPrice pair = some 10300 ∧
      Unreadable pair (next (next armed small) large) := by
  have hsmall : SafeStep pair 500 armed small (next armed small) := by
    refine ⟨⟨⟨trivial, rfl⟩, by decide +kernel, by decide +kernel⟩, ?_⟩
    simp only [small, Safe]
    decide +kernel
  have hlarge : SafeStep pair 500 (next armed small) large (next (next armed small) large) := by
    refine ⟨⟨⟨trivial, rfl⟩, by decide +kernel, by decide +kernel⟩, ?_⟩
    simp only [large, Safe]
    decide +kernel
  have hrun := breaker_of_safe (by decide) ((Trace.nil.snoc hsmall).snoc hlarge)
  have htripped : (next (next armed small) large).tripped pair := by decide +kernel
  have hheld := hrun.2 [] _ _ rfl .nil htripped (by simp)
  exact ⟨hrun.1.2.1, htripped, by decide +kernel, hheld.2.2⟩

/-- The reports of anyone replace the price by any other, also while the breaker is tripped, and a huge deviation
is stored. -/
theorem spikes_get_through :
    (¬ ∀ w₀ hist w, Reaches Step (.deployed ⟨1000, 10⟩) w₀ → Trace (SteadyStep pair 500) w₀ hist w →
      Trace.Every (fun _ a ev => Guarded pair 500 a ev (next a ev)) hist) ∧
    (next armed reportLarge).feedPrice pair = some 20600 ∧
    (next armed huge).feedPrice pair = some 4294977296 ∧
    (next armed large).tripped pair ∧ (next armed large).feedPrice pair = some 10000 ∧
    (next (next armed large) reportLarge).feedPrice pair = some 20600 := by
  refine ⟨fun h => ?_, by decide +kernel, by decide +kernel, by decide +kernel, by decide +kernel,
    by decide +kernel⟩
  have hrun : Trace (SteadyStep pair 500) armed [(armed, reportLarge)] (next armed reportLarge) :=
    Trace.nil.snoc ⟨⟨trivial, rfl⟩, by decide +kernel, by decide +kernel⟩
  have hguarded := (h _ _ _ reaches_armed hrun).1
  have hle := hguarded.change 10000 20600 (by decide +kernel) (by decide) (by decide +kernel)
  exact absurd hle (by decide)

end Sample

end CallStake.Oracle
