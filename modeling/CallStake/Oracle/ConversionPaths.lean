import CallStake.Lib.Paths
import CallStake.Oracle.Integrity

/-!
# Conversion along a path

The search for a path walks over the pairs in both directions. The conversion along the path needs a price in the
direction of the walk.

* `neighbours`: the pairs as an undirected graph. `searchPath_loop`: the fuel of the search is enough.
* `ConvertsAlong`: every hop at its price. `PricedAlong`: every hop has one.
* `conversion_iff`: the path that is found is a shortest one; the conversion succeeds where there is a path exactly
  if every hop of the one that is found has a price in its direction.
-/

namespace CallStake.Oracle

open List

/-! ## The search -/

/-- The assets at the other end of the pairs. -/
def neighbours (pairs : List AssetPair) (current : Asset) : List Asset := pairs.filterMap (·.other current)

/-- What the search returns for a path or for none. -/
def pathResult : Option (List Asset) → Except OracleError (List Asset)
  | some path => .ok path
  | none => .error .noConversionPath

section Search

variable {pairs : List AssetPair} {path visited : List Asset} {queue : List (List Asset)} {src dst current : Asset}
  {fuel : Nat} {result : Option (List Asset)}

theorem other_eq_some {pair : AssetPair} {a b : Asset} :
    pair.other a = some b ↔ pair = ⟨a, b⟩ ∨ (pair = ⟨b, a⟩ ∧ a ≠ b) := by
  obtain ⟨base, quote⟩ := pair
  unfold AssetPair.other
  dsimp only
  by_cases hbase : base = a
  · subst hbase
    rw [if_pos rfl]
    simp only [Option.some.injEq, AssetPair.mk.injEq, true_and]
    constructor
    · exact .inl
    · rintro (h | ⟨⟨hab, -⟩, hne⟩)
      · exact h
      · exact absurd hab hne
  · rw [if_neg hbase]
    by_cases hquote : quote = a
    · subst hquote
      rw [if_pos rfl]
      simp
      constructor
      · intro h
        exact .inr ⟨h, fun hab => hbase (h.trans hab.symm)⟩
      · rintro (⟨hab, -⟩ | ⟨h, -⟩)
        · exact absurd hab hbase
        · exact h
    · rw [if_neg hquote]
      simp [hbase, hquote]

/-- Two assets are neighbours if there is a pair of them, in either direction. -/
theorem mem_neighbours {a b : Asset} : b ∈ neighbours pairs a ↔ ⟨a, b⟩ ∈ pairs ∨ ⟨b, a⟩ ∈ pairs := by
  unfold neighbours
  rw [mem_filterMap]
  constructor
  · rintro ⟨pair, hpair, hother⟩
    rcases other_eq_some.mp hother with rfl | ⟨rfl, -⟩
    · exact .inl hpair
    · exact .inr hpair
  · rintro (hpair | hpair)
    · exact ⟨_, hpair, other_eq_some.mpr (.inl rfl)⟩
    · by_cases hab : a = b
      · subst hab
        exact ⟨_, hpair, other_eq_some.mpr (.inl rfl)⟩
      · exact ⟨_, hpair, other_eq_some.mpr (.inr ⟨rfl, hab⟩)⟩

theorem foldl_exploreNeighbour (st : List (List Asset) × List Asset) :
    pairs.foldl (exploreNeighbour path current) st = (neighbours pairs current).foldl (enqueue path) st := by
  rw [neighbours, foldl_filterMap]
  refine congrArg (fun f => pairs.foldl f st) (funext fun st => funext fun pair => ?_)
  unfold exploreNeighbour enqueue
  rcases pair.other current with _ | next
  · rfl
  · rfl

/-- Every asset of the pairs. -/
def assetsOf (pairs : List AssetPair) : List Asset := pairs.flatMap fun pair => [pair.base, pair.quote]

theorem neighbours_subset (pairs : List AssetPair) (current : Asset) :
    ∀ a ∈ neighbours pairs current, a ∈ assetsOf pairs := by
  intro a ha
  rcases mem_neighbours.mp ha with hpair | hpair
  · exact List.mem_flatMap.mpr ⟨_, hpair, by simp⟩
  · exact List.mem_flatMap.mpr ⟨_, hpair, by simp⟩

/-- A round takes a path from the queue, and only unvisited assets join it. -/
theorem searchPath_loop (hfuel : queue.length + unvisited (assetsOf pairs) visited ≤ fuel)
    (hne : ∀ path ∈ queue, path ≠ []) : ∃ result, searchPath pairs dst fuel queue visited = pathResult result ∧
      SearchLoop (neighbours pairs) dst MAX_PATH_LENGTH queue visited result := by
  induction fuel generalizing queue visited with
  | zero =>
    obtain rfl := eq_nil_of_length_eq_zero (show queue.length = 0 by omega)
    exact ⟨none, rfl, .empty⟩
  | succ fuel ih =>
    cases queue with
    | nil => exact ⟨none, rfl, .empty⟩
    | cons path queue =>
      obtain ⟨hpath, hqueue⟩ := List.forall_mem_cons.mp hne
      rw [length_cons] at hfuel
      rw [searchPath]
      split
      · rename_i hlong
        have hrest : queue.length + unvisited (assetsOf pairs) visited ≤ fuel := by omega
        obtain ⟨result, heq, hloop⟩ := ih hrest hqueue
        exact ⟨result, heq, .tooLong hlong hloop⟩
      · rename_i hshort
        have hlast := List.getLast?_eq_some_getLast hpath
        generalize path.getLast hpath = current at hlast
        rw [hlast]
        dsimp only
        split
        · rename_i harrived
          subst harrived
          exact ⟨some path, rfl, .found (by omega) hlast⟩
        · rename_i hother
          rw [foldl_exploreNeighbour]
          have hless := unvisited_expand path queue visited (neighbours_subset pairs current)
          have hne' := expand_ne_nil path (neighbours pairs current) visited hqueue
          obtain ⟨result, hresult, hloop⟩ := ih (hless.trans (by omega)) hne'
          exact ⟨result, hresult, .explore (by omega) hlast hother hloop⟩

/-- The search ends, with the result of its loop. -/
theorem findConversionPath_loop (s : Storage) (src dst : Asset) : ∃ result,
    findConversionPath s src dst = pathResult result ∧
    SearchLoop (neighbours s.prices.pairsList) dst MAX_PATH_LENGTH [[src]] [src] result := by
  refine searchPath_loop ?_ ?_
  · have hall : unvisited (assetsOf s.prices.pairsList) [src] ≤ (assetsOf s.prices.pairsList).length :=
      (Finset.card_le_card Finset.sdiff_subset).trans (toFinset_card_le _)
    have hlen : (assetsOf s.prices.pairsList).length = s.prices.pairsList.length * 2 := by
      rw [assetsOf, length_flatMap]
      simp
    rw [length_singleton]
    omega
  · intro path hpath
    obtain rfl := List.mem_singleton.mp hpath
    exact cons_ne_nil src []

end Search

/-! ## The conversion -/

/-- The amount goes along the assets, over every hop at the price of the pair in that direction, with seven
decimals. -/
inductive ConvertsAlong (s : Storage) : Int → Asset → List Asset → Int → Prop where
  | nil {amount current} : ConvertsAlong s amount current [] amount
  | hop {amount current next path price result} (hprice : normalizedFeed s ⟨current, next⟩ = .ok price)
      (hrest : ConvertsAlong s ((amount * price).tdiv 10000000) next path result) :
      ConvertsAlong s amount current (next :: path) result

/-- Every hop has a price in its direction. -/
def PricedAlong (s : Storage) : Asset → List Asset → Prop
  | _, [] => True
  | current, next :: path => (s.prices.feeds.lookup ⟨current, next⟩).isSome = true ∧ PricedAlong s next path

/-- No price and no product of the conversion is too large. -/
def FitsAlong (s : Storage) : Int → Asset → List Asset → Prop
  | _, _, [] => True
  | amount, current, next :: path => convertDirect s amount current next ≠ .error .conversionOverflow ∧
      ∀ x, convertDirect s amount current next = .ok x → FitsAlong s x next path

/-- Nothing is too large on the way that the conversion takes. -/
def NoOverflow (s : Storage) (amount : Int) (asset : Asset) : Prop :=
  convertDirect s amount asset s.getBaseCurrency ≠ .error .conversionOverflow ∧
  ∀ path, findConversionPath s asset s.getBaseCurrency = .ok path → FitsAlong s amount asset path.tail

section Conversion

variable {s : Storage} {amount x : Int} {src dst asset : Asset} {path : List Asset}

theorem rescalePrice_product (x : Int) : rescalePrice x 14 7 = some (x.tdiv 10000000) := rfl

theorem convertDirect_ok : convertDirect s amount src dst = .ok x ↔
    ∃ price, normalizedFeed s ⟨src, dst⟩ = .ok price ∧ InRange (amount * price) ∧
      x = (amount * price).tdiv 10000000 := by
  unfold convertDirect
  rw [except_bind_ok]
  refine exists_congr fun price => and_congr_right fun _ => ?_
  rcases hproduct : checkedMul amount price with _ | product
  · constructor
    · intro h
      cases h
    · rintro ⟨hrange, -⟩
      rw [checkedMul_eq_some.mpr ⟨hrange.1, hrange.2, rfl⟩] at hproduct
      cases hproduct
  · obtain ⟨hmin, hmax, rfl⟩ := checkedMul_eq_some.mp hproduct
    rw [Option.bind_some, rescalePrice_product]
    constructor
    · intro h
      cases h
      exact ⟨⟨hmin, hmax⟩, rfl⟩
    · rintro ⟨-, rfl⟩
      rfl

/-- A direct conversion fails without a price, or because something is too large. -/
theorem convertDirect_succeeds (hfits : convertDirect s amount src dst ≠ .error .conversionOverflow) :
    (∃ x, convertDirect s amount src dst = .ok x) ↔ (s.prices.feeds.lookup ⟨src, dst⟩).isSome = true := by
  constructor
  · rintro ⟨x, h⟩
    obtain ⟨price, hprice, -⟩ := convertDirect_ok.mp h
    unfold normalizedFeed at hprice
    split at hprice
    · cases hprice
    · rename_i feed hfeed
      rw [hfeed]
      rfl
  · intro hfeed
    obtain ⟨feed, hfeed⟩ := Option.isSome_iff_exists.mp hfeed
    rcases hresult : convertDirect s amount src dst with e | x
    · unfold convertDirect at hresult
      rcases except_bind_error.mp hresult with hprice | ⟨price, -, hrest⟩
      · unfold normalizedFeed at hprice
        rw [hfeed] at hprice
        dsimp only at hprice
        split at hprice
        · cases hprice
          exact absurd (show convertDirect s amount src dst = _ from hresult) hfits
        · cases hprice
      · split at hrest
        · cases hrest
          exact absurd (show convertDirect s amount src dst = _ from hresult) hfits
        · cases hrest
    · exact ⟨x, rfl⟩

theorem convertsAlong_of_ok (h : convertAlong s amount src path = .ok x) : ConvertsAlong s amount src path x := by
  induction path generalizing amount src with
  | nil =>
    cases h
    exact .nil
  | cons next path ih =>
    obtain ⟨y, hdirect, h⟩ := except_bind_ok.mp h
    obtain ⟨price, hprice, -, rfl⟩ := convertDirect_ok.mp hdirect
    exact .hop hprice (ih h)

theorem convertAlong_succeeds (hfits : FitsAlong s amount src path) :
    (∃ x, convertAlong s amount src path = .ok x) ↔ PricedAlong s src path := by
  induction path generalizing amount src with
  | nil => exact iff_of_true ⟨amount, rfl⟩ trivial
  | cons next path ih =>
    obtain ⟨hhop, hrest⟩ := hfits
    rw [PricedAlong, ← convertDirect_succeeds hhop]
    constructor
    · rintro ⟨x, h⟩
      obtain ⟨y, hdirect, h⟩ := except_bind_ok.mp h
      exact ⟨⟨y, hdirect⟩, (ih (hrest y hdirect)).mp ⟨x, h⟩⟩
    · rintro ⟨⟨y, hdirect⟩, hpriced⟩
      obtain ⟨x, h⟩ := (ih (hrest y hdirect)).mpr hpriced
      exact ⟨x, except_bind_ok.mpr ⟨y, hdirect, h⟩⟩

/-- What the search finds is the only result of its loop, and a shortest path. -/
theorem findConversionPath_shortest (s : Storage) (src dst : Asset) : ∃ result,
    findConversionPath s src dst = pathResult result ∧
    (∀ r, SearchLoop (neighbours s.prices.pairsList) dst MAX_PATH_LENGTH [[src]] [src] r ↔ r = result) ∧
    ShortestWithin (neighbours s.prices.pairsList) src dst MAX_PATH_LENGTH result := by
  obtain ⟨result, heq, hloop⟩ := findConversionPath_loop s src dst
  refine ⟨result, heq, fun r => ⟨fun h => h.unique hloop, ?_⟩, hloop.shortest⟩
  rintro rfl
  exact hloop

theorem findConversionPath_succeeds : (∃ path, findConversionPath s src dst = .ok path) ↔
    ∃ path, Walk (neighbours s.prices.pairsList) src path dst ∧ path.length ≤ MAX_PATH_LENGTH := by
  obtain ⟨result, heq, -, hshortest⟩ := findConversionPath_shortest s src dst
  rw [heq]
  cases result with
  | none =>
    constructor
    · rintro ⟨path, h⟩
      cases h
    · rintro ⟨path, hwalk, hlen⟩
      exact absurd (hshortest path hwalk) (by omega)
  | some path => exact iff_of_true ⟨path, rfl⟩ ⟨path, hshortest.1, hshortest.2.1⟩

/-- A conversion that is not direct goes along the path that is found. -/
theorem conversion_ok (hbase : asset ≠ s.getBaseCurrency) : conversion s amount asset = .ok x ↔
    convertDirect s amount asset s.getBaseCurrency = .ok x ∨
    (∀ y, convertDirect s amount asset s.getBaseCurrency ≠ .ok y) ∧
      ∃ path, findConversionPath s asset s.getBaseCurrency = .ok path ∧
        convertAlong s amount asset path.tail = .ok x := by
  unfold conversion
  rw [if_neg hbase]
  rcases convertDirect s amount asset s.getBaseCurrency with e | y
  · dsimp only
    rw [convertViaPath, except_bind_ok]
    simp
  · simp

/-- Where there is a path, a conversion without overflow succeeds exactly if it is direct or the path that is found
has all its prices. -/
theorem conversion_succeeds (hbase : asset ≠ s.getBaseCurrency)
    (hdirect : convertDirect s amount asset s.getBaseCurrency ≠ .error .conversionOverflow)
    (hpath : ∀ path, findConversionPath s asset s.getBaseCurrency = .ok path → FitsAlong s amount asset path.tail) :
    ((∃ path, Walk (neighbours s.prices.pairsList) asset path s.getBaseCurrency ∧ path.length ≤ MAX_PATH_LENGTH) →
      ∃ x, conversion s amount asset = .ok x) ↔
    (s.prices.feeds.lookup ⟨asset, s.getBaseCurrency⟩).isSome = true ∨
      ∀ path, findConversionPath s asset s.getBaseCurrency = .ok path → PricedAlong s asset path.tail := by
  rw [← findConversionPath_succeeds, ← convertDirect_succeeds hdirect]
  constructor
  · intro hsucceeds
    by_cases hok : ∃ x, convertDirect s amount asset s.getBaseCurrency = .ok x
    · exact .inl hok
    · refine .inr fun path hfound => ?_
      obtain ⟨x, hx⟩ := hsucceeds ⟨path, hfound⟩
      rcases (conversion_ok hbase).mp hx with hx | ⟨-, path', hfound', hx⟩
      · exact absurd ⟨x, hx⟩ hok
      · rw [hfound] at hfound'
        cases hfound'
        exact (convertAlong_succeeds (hpath path hfound)).mp ⟨x, hx⟩
  · rintro (⟨x, hx⟩ | hpriced) ⟨path, hfound⟩
    · exact ⟨x, (conversion_ok hbase).mpr (.inl hx)⟩
    · by_cases hok : ∃ x, convertDirect s amount asset s.getBaseCurrency = .ok x
      · obtain ⟨x, hx⟩ := hok
        exact ⟨x, (conversion_ok hbase).mpr (.inl hx)⟩
      · obtain ⟨x, hx⟩ := (convertAlong_succeeds (hpath path hfound)).mpr (hpriced path hfound)
        exact ⟨x, (conversion_ok hbase).mpr (.inr ⟨not_exists.mp hok, path, hfound, hx⟩)⟩

/-- The path that is found is a shortest one in the undirected graph. Where there is one, the conversion succeeds
exactly if it is direct or every hop of that path has a price in its direction, and then it goes over every hop at
its price. -/
theorem conversion_iff (s : Storage) :
    (∀ src dst, ∃ result, findConversionPath s src dst = pathResult result ∧
      (∀ r, SearchLoop (neighbours s.prices.pairsList) dst MAX_PATH_LENGTH [[src]] [src] r ↔ r = result) ∧
      ShortestWithin (neighbours s.prices.pairsList) src dst MAX_PATH_LENGTH result) ∧
    ∀ amount asset, NoOverflow s amount asset →
      (((∃ path, Walk (neighbours s.prices.pairsList) asset path s.getBaseCurrency ∧ path.length ≤ MAX_PATH_LENGTH) →
        ∃ x, conversion s amount asset = .ok x) ↔
          asset = s.getBaseCurrency ∨
          (s.prices.feeds.lookup ⟨asset, s.getBaseCurrency⟩).isSome = true ∨
          ∀ path, findConversionPath s asset s.getBaseCurrency = .ok path → PricedAlong s asset path.tail) ∧
      ∀ x, conversion s amount asset = .ok x →
        (asset = s.getBaseCurrency ∧ x = amount) ∨ ConvertsAlong s amount asset [s.getBaseCurrency] x ∨
        ∃ path, findConversionPath s asset s.getBaseCurrency = .ok path ∧
          ConvertsAlong s amount asset path.tail x := by
  refine ⟨findConversionPath_shortest s, ?_⟩
  rintro amount asset ⟨hdirect, hpath⟩
  by_cases hbase : asset = s.getBaseCurrency
  · have hconversion : conversion s amount asset = .ok amount := if_pos hbase
    refine ⟨iff_of_true (fun _ => ⟨amount, hconversion⟩) (.inl hbase), fun x hx => ?_⟩
    rw [hconversion] at hx
    cases hx
    exact .inl ⟨hbase, rfl⟩
  · refine ⟨(conversion_succeeds hbase hdirect hpath).trans (or_iff_right hbase).symm, fun x hx => ?_⟩
    rcases (conversion_ok hbase).mp hx with hx | ⟨-, path, hfound, hx⟩
    · obtain ⟨price, hprice, -, rfl⟩ := convertDirect_ok.mp hx
      exact .inr (.inl (.hop hprice .nil))
    · exact .inr (.inr ⟨path, hfound, convertsAlong_of_ok hx⟩)

end Conversion

namespace Sample

/-- A price of `2` for the pair the other way round. -/
def oneWay : World := next ready (.call (signedBy mallory) (.setPrice ⟨xlm, usdc⟩ 20000000))

theorem oneWay_path : findConversionPath oneWay.store usdc oneWay.store.getBaseCurrency = .ok [usdc, xlm] := by
  decide +kernel

theorem oneWay_direct : convertDirect oneWay.store 100 usdc xlm = .error .priceNotFound := by decide +kernel

/-- The path uses the pair against its direction, where it has no price. -/
theorem conversion_against_pair : ¬ ∀ s amount asset, 0 < amount →
    (∀ pair ∈ s.prices.pairsList, ∃ feed, s.prices.feeds.lookup pair = some feed ∧ 0 < feed.price) →
    NoOverflow s amount asset →
    (∃ path, Walk (neighbours s.prices.pairsList) asset path s.getBaseCurrency ∧ path.length ≤ MAX_PATH_LENGTH) →
    ∃ x, conversion s amount asset = .ok x := by
  intro h
  have hbase : oneWay.store.getBaseCurrency = xlm := by decide +kernel
  have hpairs : oneWay.store.prices.pairsList = [⟨xlm, usdc⟩] := by decide +kernel
  have hpriced : ∀ pair ∈ oneWay.store.prices.pairsList,
      ∃ feed, oneWay.store.prices.feeds.lookup pair = some feed ∧ 0 < feed.price := by
    rw [hpairs, forall_mem_singleton]
    exact ⟨⟨20000000, 1000⟩, by decide +kernel, by decide⟩
  have hfits : NoOverflow oneWay.store 100 usdc := by
    rw [NoOverflow, oneWay_path, hbase, oneWay_direct]
    refine ⟨by decide, ?_⟩
    rintro path ⟨⟩
    exact ⟨by rw [oneWay_direct]; decide, fun _ _ => trivial⟩
  obtain ⟨x, hx⟩ := h oneWay.store 100 usdc (by decide) hpriced hfits
    (findConversionPath_succeeds.mp ⟨_, oneWay_path⟩)
  have hfails : conversion oneWay.store 100 usdc = .error .priceNotFound := by decide +kernel
  rw [hfails] at hx
  cases hx

/-- The price of the pair in the direction of the conversion. -/
def bothWays : World := next oneWay (.call (signedBy mallory) (.setPrice ⟨usdc, xlm⟩ 5000000))

/-- The conversion over the only pair. -/
theorem conversion_along_pair :
    (((∃ path, Walk (neighbours bothWays.store.prices.pairsList) usdc path bothWays.store.getBaseCurrency ∧
        path.length ≤ MAX_PATH_LENGTH) → ∃ x, conversion bothWays.store 100 usdc = .ok x) ↔
      usdc = bothWays.store.getBaseCurrency ∨
      (bothWays.store.prices.feeds.lookup ⟨usdc, bothWays.store.getBaseCurrency⟩).isSome = true ∨
      ∀ path, findConversionPath bothWays.store usdc bothWays.store.getBaseCurrency = .ok path →
        PricedAlong bothWays.store usdc path.tail) ∧
    ∀ x, conversion bothWays.store 100 usdc = .ok x →
      (usdc = bothWays.store.getBaseCurrency ∧ x = 100) ∨
      ConvertsAlong bothWays.store 100 usdc [bothWays.store.getBaseCurrency] x ∨
      ∃ path, findConversionPath bothWays.store usdc bothWays.store.getBaseCurrency = .ok path ∧
        ConvertsAlong bothWays.store 100 usdc path.tail x := by
  have hbase : bothWays.store.getBaseCurrency = xlm := by decide +kernel
  have hpath : findConversionPath bothWays.store usdc bothWays.store.getBaseCurrency = .ok [usdc, xlm] := by
    decide +kernel
  have hdirect : convertDirect bothWays.store 100 usdc xlm = .ok 50 := by decide +kernel
  refine (conversion_iff bothWays.store).2 100 usdc ⟨by rw [hbase, hdirect]; decide, ?_⟩
  rw [hpath]
  rintro path ⟨⟩
  exact ⟨by rw [hdirect]; decide, fun _ _ => trivial⟩

end Sample

end CallStake.Oracle
