import CallStake.Lib.Trace
import CallStake.Oracle.ConversionPaths

/-!
# The cache of conversions

A conversion keeps the rate that its amount and its rounded result give, and the conversions of the same asset in
the next `300` seconds use it.

* `ConversionStep`: calls that convert positive amounts; ledgers close and entries expire in between.
* `ReturnsConversion`: the call returns what the conversion without the cache returns. `RateReproduces`: the cached
  rate gives that for the amount.
* `conversions_iff`: the calls of a run return the conversions exactly if the cached rates reproduce them; and a rate
  reproduces every amount at a direct price exactly if the amount it comes from was converted without rounding.
* `conversions_of_whole`: so all calls of a run from an empty cache return the conversions after such amounts.
-/

namespace CallStake.Oracle

/-- A conversion of a positive amount, or no call. -/
def Converting : Event → Prop
  | .call _ (.convertToBase amount _) => 0 < amount
  | .call _ _ => False
  | .advance _ => True
  | .expire _ _ => True

/-- A step of the runs of conversions. -/
def ConversionStep (w : World) (ev : Event) (w' : World) : Prop := Step w ev w' ∧ Converting ev

/-- What a cached rate gives. -/
def served (amount rate : Int) : Except OracleError Int :=
  match checkedMul amount rate with
  | none => .error .conversionOverflow
  | some product => .ok (product.tdiv 10000000)

/-- The call returns what a search returns. -/
def ReturnsConversion (w : World) : Event → Prop
  | .call _ (.convertToBase amount asset) =>
    (convertToBase amount asset w).1 = (conversion w.store amount asset).mapError err
  | _ => True

/-- If a fresh rate is cached, it gives what the conversion gives. -/
def RateReproduces (w : World) : Event → Prop
  | .call _ (.convertToBase amount asset) => ∀ rate, cachedRate w.store w.ledger.timestamp asset = some rate →
      served amount rate = conversion w.store amount asset
  | _ => True

/-- The rate of an earlier conversion of the asset. -/
def RateOfCall (s : Storage) (hist : List (World × Event)) (asset : Asset) (rate : Int) : Prop :=
  ∃ e ∈ hist, ∃ env amount result, e.2 = .call env (.convertToBase amount asset) ∧ 0 < amount ∧
    conversion s amount asset = .ok result ∧ rate = rateOf amount result

/-- A fresh rate that is cached is the one of an earlier call. -/
def Sourced (s : Storage) (earlier : List (World × Event)) (w : World) : Event → Prop
  | .call _ (.convertToBase _ asset) => ∀ rate, cachedRate w.store w.ledger.timestamp asset = some rate →
      RateOfCall s earlier asset rate
  | _ => True

/-- What conversions read is the same. -/
structure SamePrices (s s' : Storage) : Prop where
  feeds : s'.prices.feeds = s.prices.feeds
  feedDecimals : s'.prices.feedDecimals = s.prices.feedDecimals
  pairsList : s'.prices.pairsList = s.prices.pairsList
  baseCurrency : s'.prices.baseCurrency = s.prices.baseCurrency

section Calls

variable {s s' : Storage} {w w' : World} {amount rate : Int} {asset : Asset}

theorem bind_ofExcept_eq {α β : Type} (r : Except (Fault OracleError) α) (k : α → O β) :
    (Tx.ofExcept r >>= k) w =
      match r with
      | .ok a => k a w
      | .error e => (.error e, w) := by
  cases r <;> rfl

/-- A fresh cached rate is used, and nothing is written. -/
theorem convertToBase_cached (h : cachedRate w.store w.ledger.timestamp asset = some rate) :
    convertToBase amount asset w = ((served amount rate).mapError err, w) := by
  rw [convertToBase, bind_timestamp_eq, bind_load_eq, h, served]
  dsimp only
  rcases checkedMul amount rate with _ | product
  · rfl
  · rfl

theorem convertToBase_fresh (h : cachedRate w.store w.ledger.timestamp asset = none) :
    convertToBase amount asset w = convertAndCache amount asset w := by
  rw [convertToBase, bind_timestamp_eq, bind_load_eq, h]

/-- The cache after a conversion. -/
def World.cacheRate (w : World) (asset : Asset) (rate : Int) : World :=
  if 0 < rate then { w with store.monitor.conversionCache :=
    w.store.monitor.conversionCache.insert (asset, w.store.getBaseCurrency) ⟨rate, w.ledger.timestamp⟩ }
  else w

theorem convertAndCache_ok {result : Int} (h : conversion w.store amount asset = .ok result) :
    convertAndCache amount asset w = (.ok result, w.cacheRate asset (rateOf amount result)) := by
  rw [convertAndCache, bind_timestamp_eq, bind_load_eq, bind_load_eq, h, bind_ofExcept_eq, World.cacheRate]
  unfold Tx.when
  dsimp only [Except.mapError]
  split
  · rfl
  · rfl

theorem convertAndCache_error {e : OracleError} (h : conversion w.store amount asset = .error e) :
    convertAndCache amount asset w = (.error (err e), w) := by
  rw [convertAndCache, bind_timestamp_eq, bind_load_eq, bind_load_eq, h]
  rfl

/-- The two ways to the result agree exactly if a fresh cached rate gives what the conversion gives. -/
theorem returnsConversion_iff (w : World) (ev : Event) : ReturnsConversion w ev ↔ RateReproduces w ev := by
  cases ev with
  | call _ c =>
    cases c with
    | convertToBase amount asset =>
      unfold ReturnsConversion RateReproduces
      dsimp only
      rcases hrate : cachedRate w.store w.ledger.timestamp asset with _ | rate
      · rw [convertToBase_fresh hrate]
        rcases hconversion : conversion w.store amount asset with e | result
        · simp [convertAndCache_error hconversion, Except.mapError]
        · simp [convertAndCache_ok hconversion, Except.mapError]
      · rw [convertToBase_cached hrate]
        dsimp only
        simp
        rcases served amount rate with e | x
        · rcases conversion w.store amount asset with e' | y
          · simp [Except.mapError, err]
          · simp [Except.mapError]
        · rcases conversion w.store amount asset with e' | y
          · simp [Except.mapError]
          · simp [Except.mapError]
    | _ => exact Iff.rfl
  | advance => exact Iff.rfl
  | expire => exact Iff.rfl

theorem conversion_congr (h : SamePrices s s') (amount : Int) (asset : Asset) :
    conversion s' amount asset = conversion s amount asset := by
  have hfeed : normalizedFeed s' = normalizedFeed s := by
    funext pair
    rw [normalizedFeed, normalizedFeed, h.feeds, h.feedDecimals]
  have hdirect : convertDirect s' = convertDirect s := by
    funext amount src dst
    rw [convertDirect, convertDirect, hfeed]
  have halong (path : List Asset) : ∀ amount current,
      convertAlong s' amount current path = convertAlong s amount current path := by
    induction path with
    | nil => exact fun _ _ => rfl
    | cons next path ih =>
      intro amount current
      rw [convertAlong, convertAlong, hdirect]
      exact congrArg (convertDirect s amount current next >>= ·) (funext fun x => ih x next)
  have hbase : s'.getBaseCurrency = s.getBaseCurrency := by
    rw [Storage.getBaseCurrency, Storage.getBaseCurrency, h.baseCurrency]
  unfold conversion convertViaPath findConversionPath
  simp only [hbase, hdirect, h.pairsList, halong]

theorem SamePrices.refl (s : Storage) : SamePrices s s := ⟨rfl, rfl, rfl, rfl⟩

theorem SamePrices.trans {s₀ : Storage} (h : SamePrices s₀ s) (h' : SamePrices s s') : SamePrices s₀ s' :=
  ⟨h'.feeds.trans h.feeds, h'.feedDecimals.trans h.feedDecimals, h'.pairsList.trans h.pairsList,
    h'.baseCurrency.trans h.baseCurrency⟩

/-- A call changes nothing, or keeps the rate of its amount. -/
theorem next_convertToBase (env : Env) (w : World) (amount : Int) (asset : Asset) :
    next w (.call env (.convertToBase amount asset)) = w ∨
    ∃ result, conversion w.store amount asset = .ok result ∧
      next w (.call env (.convertToBase amount asset)) = w.cacheRate asset (rateOf amount result) := by
  rcases Tx.exec_cases (Tx.void (convertToBase amount asset)) w with ⟨u, hrun⟩ | hrun
  · obtain ⟨x, hrun⟩ := Tx.void_ok.mp hrun
    rcases hrate : cachedRate w.store w.ledger.timestamp asset with _ | rate
    · rw [convertToBase_fresh hrate] at hrun
      rcases hconversion : conversion w.store amount asset with e | result
      · rw [convertAndCache_error hconversion] at hrun
        cases hrun
      · rw [convertAndCache_ok hconversion] at hrun
        exact .inr ⟨result, rfl, (Prod.mk.inj hrun).2.symm⟩
    · rw [convertToBase_cached hrate] at hrun
      exact .inl (Prod.mk.inj hrun).2.symm
  · exact .inl hrun

/-- After a run from an empty cache: what conversions read has not changed, and every cached rate is the one of an
earlier call. -/
structure CacheInv (s : Storage) (hist : List (World × Event)) (w : World) : Prop where
  samePrices : SamePrices s w.store
  ofCall : ∀ key cached, w.store.monitor.conversionCache.lookup key = some cached →
    RateOfCall s hist key.1 cached.rate

theorem RateOfCall.mono {hist : List (World × Event)} {e : World × Event} (h : RateOfCall s hist asset rate) :
    RateOfCall s (e :: hist) asset rate := by
  obtain ⟨e', he, hcall⟩ := h
  exact ⟨e', List.mem_cons_of_mem e he, hcall⟩

/-- It stays so while the prices stay and no rate is cached. -/
theorem CacheInv.kept {hist : List (World × Event)} {e : World × Event} (h : CacheInv s hist w)
    (hprices : SamePrices w.store w'.store)
    (hcache : ∀ key cached, w'.store.monitor.conversionCache.lookup key = some cached →
      w.store.monitor.conversionCache.lookup key = some cached) : CacheInv s (e :: hist) w' where
  samePrices := h.samePrices.trans hprices
  ofCall key cached hcached := (h.ofCall key cached (hcache key cached hcached)).mono

/-- The call that caches a rate takes it from its amount. -/
theorem CacheInv.cacheRate {hist : List (World × Event)} {env : Env} {amount result : Int}
    (h : CacheInv s hist w) (hamount : 0 < amount) (hconversion : conversion w.store amount asset = .ok result) :
    CacheInv s ((w, .call env (.convertToBase amount asset)) :: hist)
      (w.cacheRate asset (rateOf amount result)) := by
  rw [World.cacheRate]
  split
  · refine ⟨⟨h.samePrices.feeds, h.samePrices.feedDecimals, h.samePrices.pairsList, h.samePrices.baseCurrency⟩,
      fun key cached hcached => ?_⟩
    dsimp only at hcached
    rw [Store.lookup_insert_eq] at hcached
    split at hcached
    · rename_i hkey
      subst hkey
      cases hcached
      rw [conversion_congr h.samePrices] at hconversion
      exact ⟨_, List.mem_cons_self, env, amount, result, rfl, hamount, hconversion, rfl⟩
    · exact (h.ofCall key cached hcached).mono
  · exact h.kept (.refl _) fun _ _ hc => hc

theorem CacheInv.step {hist : List (World × Event)} {ev : Event} (h : CacheInv s hist w)
    (hstep : ConversionStep w ev w') : CacheInv s ((w, ev) :: hist) w' := by
  obtain ⟨⟨-, rfl⟩, hconverting⟩ := hstep
  cases ev with
  | call env c =>
    cases c with
    | convertToBase amount asset =>
      rcases next_convertToBase env w amount asset with hw | ⟨result, hconversion, hw⟩
      · rw [hw]
        exact h.kept (.refl _) fun _ _ hc => hc
      · rw [hw]
        exact h.cacheRate hconverting hconversion
    | _ => exact absurd hconverting id
  | advance => exact h.kept (.refl _) fun _ _ hc => hc
  | expire _ assets =>
    refine h.kept ⟨rfl, rfl, rfl, rfl⟩ fun key cached hcached => ?_
    change (w.store.monitor.conversionCache.erase assets).lookup key = some cached at hcached
    rw [Store.lookup_erase_eq] at hcached
    split at hcached
    · cases hcached
    · exact hcached

theorem CacheInv.sourced {hist : List (World × Event)} (h : CacheInv s hist w) (ev : Event) :
    Sourced s hist w ev := by
  cases ev with
  | call _ c =>
    cases c with
    | convertToBase =>
      intro rate hrate
      unfold cachedRate at hrate
      split at hrate
      · cases hrate
      · rename_i cached hcached
        split at hrate
        · cases hrate
          exact h.ofCall _ cached hcached
        · cases hrate
    | _ => trivial
  | advance => trivial
  | expire => trivial

theorem CacheInv.start (h : s.monitor.conversionCache = ∅) (hw : w.store = s) : CacheInv s [] w where
  samePrices := hw ▸ .refl s
  ofCall _ _ hcached := absurd (h ▸ hw ▸ hcached) Store.lookup_empty_ne

theorem served_eq {amount rate : Int} (hamount : 0 ≤ amount) (hrate : 0 ≤ rate) (hmax : amount * rate ≤ i128Max) :
    served amount rate = .ok (amount * rate / 10000000) := by
  have hnonneg : 0 ≤ amount * rate := Int.mul_nonneg hamount hrate
  rw [served, checkedMul_eq_some.mpr ⟨by unfold i128Min; omega, hmax, rfl⟩]
  exact congrArg Except.ok (Int.tdiv_eq_ediv_of_nonneg hnonneg)

theorem rateOf_eq {amount result : Int} (hamount : 0 < amount) (hresult : 0 ≤ result)
    (hmax : result * 10000000 ≤ i128Max) : rateOf amount result = result * 10000000 / amount := by
  have hnonneg : 0 ≤ result * 10000000 := by omega
  rw [rateOf, if_pos hamount, checkedMul_eq_some.mpr ⟨by unfold i128Min; omega, hmax, rfl⟩]
  exact Int.tdiv_eq_ediv_of_nonneg hnonneg

/-- At a direct price. -/
theorem conversion_of_feed {price amount : Int} (hbase : asset ≠ s.getBaseCurrency)
    (hprice : normalizedFeed s ⟨asset, s.getBaseCurrency⟩ = .ok price) (hpos : 0 ≤ price) (hamount : 0 ≤ amount)
    (hmax : amount * price ≤ i128Max) : conversion s amount asset = .ok (amount * price / 10000000) := by
  have hnonneg : 0 ≤ amount * price := Int.mul_nonneg hamount hpos
  refine (conversion_ok hbase).mpr (.inl (convertDirect_ok.mpr ⟨price, hprice, ⟨?_, hmax⟩, ?_⟩))
  · unfold i128Min
    omega
  · exact (Int.tdiv_eq_ediv_of_nonneg hnonneg).symm

/-- At a direct price a rate gives what the price gives for every amount exactly if it is the price, that is if the
amount it comes from was converted without rounding. -/
theorem rate_reproduces_iff {price amount₀ : Int} (hbase : asset ≠ s.getBaseCurrency)
    (hprice : normalizedFeed s ⟨asset, s.getBaseCurrency⟩ = .ok price) (hpos : 0 < price)
    (hunit : 10000000 * price ≤ i128Max) (h₀ : 0 < amount₀) (hfits : amount₀ * price ≤ i128Max) :
    (∀ amount, 0 < amount → amount * price ≤ i128Max →
      served amount (rateOf amount₀ (amount₀ * price / 10000000)) = conversion s amount asset) ↔
    10000000 ∣ amount₀ * price := by
  have hnonneg₀ : 0 ≤ amount₀ * price := Int.mul_nonneg h₀.le hpos.le
  have hrate : rateOf amount₀ (amount₀ * price / 10000000) = amount₀ * price / 10000000 * 10000000 / amount₀ :=
    rateOf_eq h₀ (by omega) (by omega)
  constructor
  · intro h
    have hle : rateOf amount₀ (amount₀ * price / 10000000) ≤ price := by
      rw [hrate]
      exact Int.ediv_le_of_le_mul h₀ (by rw [Int.mul_comm price]; omega)
    have hge : 0 ≤ rateOf amount₀ (amount₀ * price / 10000000) := by
      rw [hrate]
      exact Int.ediv_nonneg (by omega) h₀.le
    -- one unit tells the rate from the price
    have hone := h 10000000 (by decide) hunit
    rw [conversion_of_feed hbase hprice hpos.le (by decide) hunit, served_eq (by decide) hge (by omega)] at hone
    have hsame : rateOf amount₀ (amount₀ * price / 10000000) = price := by
      have heq := Except.ok.inj hone
      omega
    rw [hrate] at hsame
    have hmul := Int.ediv_mul_le (amount₀ * price / 10000000 * 10000000) h₀.ne'
    rw [hsame, Int.mul_comm price] at hmul
    omega
  · intro hdvd amount hamount hmax
    have hsame : rateOf amount₀ (amount₀ * price / 10000000) = price := by
      rw [hrate, Int.ediv_mul_cancel hdvd]
      exact Int.mul_ediv_cancel_left price h₀.ne'
    rw [hsame, served_eq hamount.le hpos.le hmax, conversion_of_feed hbase hprice hpos.le hamount.le hmax]

/-- The asset has a direct price, at which the call and one unit fit, and at which the earlier calls were converted
without rounding. -/
def WholeBefore (s : Storage) (earlier : List (World × Event)) (_ : World) : Event → Prop
  | .call _ (.convertToBase amount asset) => ∃ price, asset ≠ s.getBaseCurrency ∧
      normalizedFeed s ⟨asset, s.getBaseCurrency⟩ = .ok price ∧ 0 < price ∧ 10000000 * price ≤ i128Max ∧
      amount * price ≤ i128Max ∧ ∀ e ∈ earlier, ∀ env amount₀, e.2 = .call env (.convertToBase amount₀ asset) →
        amount₀ * price ≤ i128Max ∧ 10000000 ∣ amount₀ * price
  | _ => True

theorem CacheInv.reproduces {hist : List (World × Event)} {ev : Event} (h : CacheInv s hist w)
    (hstep : ConversionStep w ev w') (hwhole : WholeBefore s hist w ev) : ReturnsConversion w ev := by
  refine (returnsConversion_iff w ev).mpr ?_
  have hsourced := h.sourced ev
  cases ev with
  | call _ c =>
    cases c with
    | convertToBase amount asset =>
      intro rate hrate
      obtain ⟨price, hbase, hprice, hpos, hunit, hfits, hearlier⟩ := hwhole
      obtain ⟨e, he, env, amount₀, result, hcall, h₀, hresult, rfl⟩ := hsourced rate hrate
      obtain ⟨hfits₀, hdvd⟩ := hearlier e he env amount₀ hcall
      rw [conversion_of_feed hbase hprice hpos.le h₀.le hfits₀] at hresult
      cases hresult
      rw [conversion_congr h.samePrices]
      exact (rate_reproduces_iff hbase hprice hpos hunit h₀ hfits₀).mpr hdvd amount hstep.2 hfits
    | _ => trivial
  | advance => trivial
  | expire => trivial

end Calls

/-- In a run from an empty cache, a call after calls that were converted without rounding returns the conversion. -/
theorem conversions_of_whole {w₀ w : World} {hist : List (World × Event)} (h : Trace ConversionStep w₀ hist w)
    (hempty : w₀.store.monitor.conversionCache = ∅) (hwhole : Trace.Every (WholeBefore w₀.store) hist) :
    Trace.Every (fun _ w ev => ReturnsConversion w ev) hist :=
  h.every_imp (I := CacheInv w₀.store) (.start hempty rfl) (fun _ _ _ _ hI hs => hI.step hs)
    (fun _ _ _ _ hI hs hC => hI.reproduces hs hC) hwhole

/-- In a run of conversions every call returns what the conversion without the cache returns exactly if every fresh
rate gives that for the amount of the call. From an empty cache, every rate is `rateOf` an earlier call; at a direct
price it is right for all amounts exactly if the earlier amount was converted without rounding. -/
theorem conversions_iff {w₀ w : World} {hist : List (World × Event)} (h : Trace ConversionStep w₀ hist w) :
    (Trace.Every (fun _ w ev => ReturnsConversion w ev) hist ↔ Trace.Every (fun _ w ev => RateReproduces w ev) hist) ∧
    (w₀.store.monitor.conversionCache = ∅ → Trace.Every (Sourced w₀.store) hist) ∧
    ∀ asset price amount₀, asset ≠ w₀.store.getBaseCurrency →
      normalizedFeed w₀.store ⟨asset, w₀.store.getBaseCurrency⟩ = .ok price → 0 < price →
      10000000 * price ≤ i128Max → 0 < amount₀ → amount₀ * price ≤ i128Max →
      ((∀ amount, 0 < amount → amount * price ≤ i128Max →
        served amount (rateOf amount₀ (amount₀ * price / 10000000)) = conversion w₀.store amount asset) ↔
          10000000 ∣ amount₀ * price) := by
  refine ⟨Trace.every_congr fun _ w ev => returnsConversion_iff w ev, ?_, fun _ _ _ => rate_reproduces_iff⟩
  exact fun hempty => h.every_of_invariant (I := CacheInv w₀.store) (.start hempty rfl)
    (fun _ _ _ _ hI hs => hI.step hs) fun _ _ ev _ hI _ => hI.sourced ev

namespace Sample

/-- A price of `10.5` for the pair. -/
def fractional : World := next ready (.call (signedBy mallory) (.setPrice pair 105000000))

def convert (amount : Int) : Event := .call (signedBy mallory) (.convertToBase amount usdc)

/-- The smallest amount is converted to `10`, so the rate of `10` is kept for a whole unit. -/
theorem dust_sets_rate : ¬ ∀ w₀ w hist, Trace ConversionStep w₀ hist w →
    Trace.Every (fun _ w ev => ReturnsConversion w ev) hist := by
  intro h
  have hrun : Trace ConversionStep fractional
      [(next fractional (convert 1), convert 10000000), (fractional, convert 1)]
      (next (next fractional (convert 1)) (convert 10000000)) :=
    (Trace.nil.snoc ⟨⟨trivial, rfl⟩, show (0 : Int) < 1 by decide⟩).snoc
      ⟨⟨trivial, rfl⟩, show (0 : Int) < 10000000 by decide⟩
  have hreturns : (convertToBase 10000000 usdc (next fractional (convert 1))).1 =
      (conversion (next fractional (convert 1)).store 10000000 usdc).mapError err := (h _ _ _ hrun).1
  exact absurd hreturns (by decide +kernel)

/-- Whole units are converted without rounding. -/
def unitRun : List (World × Event) :=
  [(next fractional (convert 10000000), convert 3), (fractional, convert 10000000)]

/-- The run and its cached rate. -/
theorem unitRun_iff : (Trace.Every (fun _ w ev => ReturnsConversion w ev) unitRun ↔
      Trace.Every (fun _ w ev => RateReproduces w ev) unitRun) ∧
    (fractional.store.monitor.conversionCache = ∅ → Trace.Every (Sourced fractional.store) unitRun) ∧
    ((∀ amount, 0 < amount → amount * 105000000 ≤ i128Max →
      served amount (rateOf 10000000 (10000000 * 105000000 / 10000000)) = conversion fractional.store amount usdc) ↔
        (10000000 : Int) ∣ 10000000 * 105000000) := by
  have hrun : Trace ConversionStep fractional unitRun
      (next (next fractional (convert 10000000)) (convert 3)) :=
    (Trace.nil.snoc ⟨⟨trivial, rfl⟩, show (0 : Int) < 10000000 by decide⟩).snoc
      ⟨⟨trivial, rfl⟩, show (0 : Int) < 3 by decide⟩
  obtain ⟨hiff, hsourced, hrate⟩ := conversions_iff hrun
  exact ⟨hiff, hsourced, hrate usdc 105000000 10000000 (by decide +kernel) (by decide +kernel) (by decide)
    (by decide) (by decide) (by decide)⟩

end Sample

end CallStake.Oracle
