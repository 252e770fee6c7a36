import CallStake.Lib.Best
import CallStake.Lib.Trace
import CallStake.Oracle.ConversionPaths

/-!
# The optimal path between two assets

A route over at most three pairs is chosen by its slippage and its fees. It is kept for the two assets, whatever the
amount was.

* `mem_findAllPaths`: the routes are the simple paths. `Computes`: a computation gives a value, or traps.
* `slippageAlong`: what a route loses, with or without the cast to 32 bits of the source. `findRoute_computes`: the
  route that is chosen.
* `IsOptimal`, `ReturnsOptimal`: what the entry point is for. `Unspoiled`: the cached route is optimal for the
  amount, or without one the cast does not hide the slippage of the route that is chosen.
* `optimalPaths_iff`: the calls of a run return optimal routes exactly if each is unspoiled; from an empty cache they
  do if they are steady.
-/

namespace CallStake.Oracle

open List

/-! ## The routes -/

/-- The hops over the assets, from the first one. -/
def hopsOf : Asset → List Asset → List AssetPair
  | _, [] => []
  | current, next :: path => ⟨current, next⟩ :: hopsOf next path

/-- Hops over pairs of the graph in either direction, at most `MAX_HOPS` of them, that come to no asset twice. -/
def SimpleRoute (graph : List AssetPair) (src dst : Asset) (hops : List AssetPair) : Prop :=
  ∃ path, hops = hopsOf src path ∧ path.length ≤ MAX_HOPS ∧
    List.IsChain (fun a b => ⟨a, b⟩ ∈ graph ∨ ⟨b, a⟩ ∈ graph) (src :: path) ∧
    path.getLast? = some dst ∧ (src :: path).Nodup

section Routes

variable {graph : List AssetPair} {src dst current : Asset} {hops path : List AssetPair} {visited : List Asset}
  {steps : Nat}

@[simp] theorem length_hopsOf (current : Asset) (path : List Asset) : (hopsOf current path).length = path.length := by
  induction path generalizing current with
  | nil => rfl
  | cons next path ih => rw [hopsOf, length_cons, length_cons, ih]

theorem flatMap_neighbours {α : Type} (f : Asset → List α) : (neighbours graph current).flatMap f =
    graph.flatMap fun pair => match pair.other current with
      | none => []
      | some next => f next := by
  unfold neighbours
  induction graph with
  | nil => rfl
  | cons pair graph ih =>
    rw [flatMap_cons, filterMap_cons, ← ih]
    rcases pair.other current with _ | next
    · rfl
    · rfl

/-- The search of the source is the one of the library, with the hops in place of the assets. -/
theorem routesFrom_eq (graph : List AssetPair) (dst : Asset) (steps : Nat) (current : Asset)
    (path : List AssetPair) (visited : List Asset) : routesFrom graph dst steps current path visited =
      (simplePaths (neighbours graph) dst steps current visited).map fun l => path ++ hopsOf current l := by
  induction steps generalizing current path visited with
  | zero => rfl
  | succ steps ih =>
    rw [routesFrom, simplePaths, map_flatMap, flatMap_neighbours]
    refine congrArg (fun f => graph.flatMap f) (funext fun pair => ?_)
    rcases pair.other current with _ | next
    · rfl
    · dsimp only
      split
      · rfl
      · split
        · rfl
        · rw [ih, map_map]
          refine map_congr_left fun l _ => ?_
          rw [Function.comp_apply, hopsOf, append_assoc, singleton_append]

/-- The routes that are found are the simple paths. -/
theorem mem_findAllPaths : hops ∈ findAllPaths graph src dst ↔ SimpleRoute graph src dst hops := by
  rw [findAllPaths, routesFrom_eq, mem_map]
  refine exists_congr fun path => ?_
  rw [mem_simplePaths, nil_append, nodup_cons]
  simp only [mem_neighbours, mem_singleton]
  constructor
  · rintro ⟨⟨hlen, hchain, hlast, hnodup, hfresh⟩, rfl⟩
    exact ⟨rfl, hlen, hchain, hlast, fun hsrc => hfresh src hsrc rfl, hnodup⟩
  · rintro ⟨rfl, hlen, hchain, hlast, hsrc, hnodup⟩
    refine ⟨⟨hlen, hchain, hlast, hnodup, ?_⟩, rfl⟩
    rintro v hv rfl
    exact hsrc hv

theorem length_of_mem (h : hops ∈ findAllPaths graph src dst) : hops.length ≤ MAX_HOPS := by
  obtain ⟨path, rfl, hlen, -⟩ := mem_findAllPaths.mp h
  rwa [length_hopsOf]

end Routes

/-! ## Computations that may trap -/

/-- `x` returns `a` and writes nothing, or it traps. -/
def Computes {α : Type} (x : O α) (w : World) (a : α) : Prop := x w = (.ok a, w) ∨ ∃ w', x w = (.error .panic, w')

section Traps

variable {α β : Type} {w : World} {a : α} {b : β}

theorem computes_pure : Computes (pure a) w a := .inl rfl

theorem computes_load (f : Storage → α) : Computes (load f) w (f w.store) := .inl rfl

theorem computes_plain (x : Int) : Computes (plain x) w x := by
  unfold plain checked
  split
  · exact .inl rfl
  · exact .inr ⟨w, rfl⟩

theorem computes_plainU32 (n : Nat) : Computes (plainU32 n) w n := by
  unfold plainU32
  split
  · exact .inl rfl
  · exact .inr ⟨w, rfl⟩

theorem Computes.bind {x : O α} {f : α → O β} (hx : Computes x w a) (hf : Computes (f a) w b) :
    Computes (x >>= f) w b := by
  rcases hx with hx | ⟨w', hx⟩
  · rw [Computes, Tx.bind_of_ok hx]
    exact hf
  · exact .inr ⟨w', Tx.bind_of_error hx⟩

end Traps

/-! ## What a route loses -/

/-- Five basis points for every `10000` units above the first `1000`. -/
def exactVolume (amount : Int) : Nat :=
  if 1000 * PRECISION < amount then ((amount.tdiv PRECISION - 1000).tdiv 10000).toNat * 5 else 0

/-- The same with the cast of the source, which keeps 32 bits of the count. -/
def castVolume (amount : Int) : Nat :=
  if 1000 * PRECISION < amount then asU32 ((amount.tdiv PRECISION - 1000).tdiv 10000) * 5 else 0

/-- The amount after a hop, at the price of the hop or else at `1`, less the slippage. -/
def afterHop (volume : Int → Nat) (s : Storage) (amount : Int) (hop : AssetPair) : Int :=
  ((amount * ((s.prices.feeds.lookup hop).map (·.price)).getD PRECISION).tdiv PRECISION *
    (10000 - (10 + volume amount : Nat))).tdiv 10000

/-- The slippage of the hops, one after the other. -/
def slippageAlong (volume : Int → Nat) (s : Storage) : Int → List AssetPair → Nat
  | _, [] => 0
  | amount, hop :: path => 10 + volume amount + slippageAlong volume s (afterHop volume s amount hop) path

/-- What the source makes of a route, unless it loses too much. -/
def routeOffer (s : Storage) (amount : Int) (path : List AssetPair) : Option LiquidityPath :=
  if SLIPPAGE_TOLERANCE_BPS < slippageAlong castVolume s amount path then none
  else some ⟨path, if path = [] then i128Max else 1000000 * PRECISION, slippageAlong castVolume s amount path,
    30 * path.length⟩

def LiquidityPath.cost (path : LiquidityPath) : Nat := path.estimatedSlippage + path.totalFees

section Costs

variable {w : World} {s : Storage} {amount : Int} {path : List AssetPair} {src dst : Asset} {r : LiquidityPath}

theorem volumeSlippage_computes (amount : Int) : Computes (volumeSlippage amount) w (castVolume amount) := by
  unfold volumeSlippage castVolume
  split
  · exact computes_plainU32 _
  · exact computes_pure

theorem getPriceWithSlippage_computes (hop : AssetPair) (amount : Int) :
    Computes (getPriceWithSlippage hop amount) w
      (((w.store.prices.feeds.lookup hop).map (·.price)).getD PRECISION, 10 + castVolume amount) :=
  (computes_load _).bind ((volumeSlippage_computes amount).bind ((computes_plainU32 _).bind computes_pure))

theorem costAlong_computes (path : List AssetPair) (cost : RouteCost) : ∃ out, Computes (costAlong cost path) w
    ⟨out, cost.slippage + slippageAlong castVolume w.store cost.amount path, cost.fees + 30 * path.length⟩ := by
  induction path generalizing cost with
  | nil => exact ⟨cost.amount, computes_pure⟩
  | cons hop path ih =>
    obtain ⟨out, hrest⟩ := ih ⟨afterHop castVolume w.store cost.amount hop,
      cost.slippage + (10 + castVolume cost.amount), cost.fees + 30⟩
    refine ⟨out, ?_⟩
    rw [slippageAlong, length_cons, ← Nat.add_assoc cost.slippage, Nat.mul_succ, Nat.add_comm (30 * path.length),
      ← Nat.add_assoc cost.fees]
    exact (computes_plainU32 _).bind ((getPriceWithSlippage_computes hop cost.amount).bind
      ((computes_plainU32 _).bind ((computes_plain _).bind ((computes_plain _).bind hrest))))

theorem calculatePathCost_computes (path : List AssetPair) (amount : Int) :
    Computes (calculatePathCost path amount) w (routeOffer w.store amount path) := by
  obtain ⟨out, hcost⟩ := costAlong_computes (w := w) path ⟨amount, 0, 0⟩
  refine hcost.bind ?_
  rw [Nat.zero_add, Nat.zero_add]
  exact computes_pure

theorem routeOffer_some (h : routeOffer s amount path = some r) : r.hops = path ∧
    r.estimatedSlippage = slippageAlong castVolume s amount path ∧
    slippageAlong castVolume s amount path ≤ SLIPPAGE_TOLERANCE_BPS ∧ r.totalFees = 30 * path.length := by
  unfold routeOffer at h
  split at h
  · cases h
  · rename_i hslippage
    cases h
    exact ⟨rfl, rfl, by omega, rfl⟩

theorem routeOffer_none : routeOffer s amount path = none ↔
    SLIPPAGE_TOLERANCE_BPS < slippageAlong castVolume s amount path := by
  unfold routeOffer
  split
  · rename_i h
    exact iff_of_true rfl h
  · rename_i h
    exact iff_of_false (by simp) h

/-- The offers of the routes that are found are below the cost that the search starts with. -/
theorem cheaper_computes (best : Option LiquidityPath) (hlen : path.length ≤ MAX_HOPS) :
    Computes (cheaper best (routeOffer s amount path)) w
      (keepLess LiquidityPath.cost best (routeOffer s amount path)) := by
  rcases hoffer : routeOffer s amount path with _ | c
  · cases best <;> exact computes_pure
  · have hcost : c.estimatedSlippage + c.totalFees < u32Max := by
      obtain ⟨-, hslippage, hle, hfees⟩ := routeOffer_some hoffer
      unfold SLIPPAGE_TOLERANCE_BPS at hle
      unfold MAX_HOPS at hlen
      unfold u32Max
      omega
    rcases best with _ | b
    · refine (computes_plainU32 _).bind ?_
      rw [if_pos hcost]
      exact computes_pure
    · exact (computes_plainU32 _).bind computes_pure

theorem bestPath_computes (amount : Int) (best : Option LiquidityPath) (paths : List (List AssetPair))
    (hlen : ∀ path ∈ paths, path.length ≤ MAX_HOPS) : Computes (bestPath amount best paths) w
      (scanLeast (routeOffer w.store amount) LiquidityPath.cost best paths) := by
  induction paths generalizing best with
  | nil => exact computes_pure
  | cons path paths ih =>
    obtain ⟨hpath, hpaths⟩ := List.forall_mem_cons.mp hlen
    exact (calculatePathCost_computes path amount).bind ((cheaper_computes best hpath).bind (ih _ hpaths))

/-- The route that the search chooses. -/
def chosenRoute (s : Storage) (src dst : Asset) (amount : Int) : Option LiquidityPath :=
  scanLeast (routeOffer s amount) LiquidityPath.cost none (findAllPaths s.prices.pairsList src dst)

theorem findRoute_computes (src dst : Asset) (amount : Int) :
    Computes (bestPath amount none (findAllPaths w.store.prices.pairsList src dst)) w
      (chosenRoute w.store src dst amount) :=
  bestPath_computes amount none _ fun _ hpath => length_of_mem hpath

end Costs

/-! ## What the entry point is for -/

/-- The estimate is the slippage of the route for the amount, it is within the tolerance, and no route within the
tolerance costs less. -/
structure IsOptimal (s : Storage) (src dst : Asset) (amount : Int) (r : LiquidityPath) : Prop where
  mem : r.hops ∈ findAllPaths s.prices.pairsList src dst
  slippage : r.estimatedSlippage = slippageAlong exactVolume s amount r.hops
  tolerance : r.estimatedSlippage ≤ SLIPPAGE_TOLERANCE_BPS
  fees : r.totalFees = 30 * r.hops.length
  minimal : ∀ path ∈ findAllPaths s.prices.pairsList src dst,
    slippageAlong exactVolume s amount path ≤ SLIPPAGE_TOLERANCE_BPS →
      r.cost ≤ slippageAlong exactVolume s amount path + 30 * path.length

/-- An optimal route, or an error if no route is within the tolerance. -/
def ReturnsOptimal (w : World) : Event → Prop
  | .call _ (.findOptimalPath src dst amount) =>
    match (findOptimalPath src dst amount w).1 with
    | .ok r => IsOptimal w.store src dst amount r
    | .error e => e = err .noPathFound ∧ ∀ path ∈ findAllPaths w.store.prices.pairsList src dst,
        SLIPPAGE_TOLERANCE_BPS < slippageAlong exactVolume w.store amount path
  | _ => True

/-- The route that the search chooses is within the tolerance without the cast too. -/
def NoHiddenSlippage (s : Storage) (src dst : Asset) (amount : Int) : Prop :=
  ∀ path r, FirstLeast (routeOffer s amount) LiquidityPath.cost (findAllPaths s.prices.pairsList src dst) path r →
    slippageAlong exactVolume s amount path ≤ SLIPPAGE_TOLERANCE_BPS

/-- A route that is cached is optimal for the amount; without one, the search is not misled by the cast. -/
def Unspoiled (w : World) : Event → Prop
  | .call _ (.findOptimalPath src dst amount) =>
    match w.store.monitor.cachedPaths.lookup (src, dst) with
    | some r => IsOptimal w.store src dst amount r
    | none => NoHiddenSlippage w.store src dst amount
  | _ => True

/-- The calls so far that asked for the same assets did so for amounts of the same slippage. -/
def Steady (hist : List (World × Event)) (w : World) : Event → Prop
  | .call _ (.findOptimalPath src dst amount) => NoHiddenSlippage w.store src dst amount ∧
      ∀ e ∈ hist, ∀ env amount₀, e.2 = .call env (.findOptimalPath src dst amount₀) →
        ∀ path ∈ findAllPaths w.store.prices.pairsList src dst,
          slippageAlong castVolume w.store amount₀ path = slippageAlong castVolume w.store amount path
  | _ => True

/-- A search for a route whose arithmetic does not overflow, or no call. -/
def Routing (w : World) : Event → Prop
  | .call _ (.findOptimalPath src dst amount) => 0 ≤ amount ∧ (findOptimalPath src dst amount w).1 ≠ .error .panic
  | .call _ _ => False
  | .advance _ => True
  | .expire _ _ => True

def PathStep (w : World) (ev : Event) (w' : World) : Prop := Step w ev w' ∧ Routing w ev

section Optimal

variable {w w' : World} {s s' : Storage} {amount : Int} {path : List AssetPair} {src dst : Asset} {r : LiquidityPath}

/-- Slippages within the tolerance are far below what the cast cuts off. -/
theorem castVolume_eq (h : exactVolume amount ≤ SLIPPAGE_TOLERANCE_BPS) : castVolume amount = exactVolume amount := by
  unfold castVolume exactVolume asU32 at *
  unfold SLIPPAGE_TOLERANCE_BPS at h
  split
  · rename_i hlarge
    rw [if_pos hlarge] at h
    unfold PRECISION at *
    have hunits : 1000 ≤ amount.tdiv 10000000 := by
      rw [Int.tdiv_eq_ediv_of_nonneg (by omega)]
      omega
    have hcount : 0 ≤ (amount.tdiv 10000000 - 1000).tdiv 10000 := Int.tdiv_nonneg (by omega) (by decide)
    generalize (amount.tdiv 10000000 - 1000).tdiv 10000 = count at *
    omega
  · rfl

example : castVolume 429496729610000000000 = 0 ∧ exactVolume 429496729610000000000 = 21474836480 := by decide

/-- A route within the tolerance is not changed by the cast. -/
theorem slippageAlong_cast (h : slippageAlong exactVolume s amount path ≤ SLIPPAGE_TOLERANCE_BPS) :
    slippageAlong castVolume s amount path = slippageAlong exactVolume s amount path := by
  induction path generalizing amount with
  | nil => rfl
  | cons hop path ih =>
    rw [slippageAlong] at h
    have hle : exactVolume amount ≤ SLIPPAGE_TOLERANCE_BPS := by omega
    have hhop := castVolume_eq hle
    have hafter : afterHop castVolume s amount hop = afterHop exactVolume s amount hop := by
      rw [afterHop, afterHop, hhop]
    rw [slippageAlong, slippageAlong, hhop, hafter, ih (by omega)]

/-- The chosen route is optimal if the cast does not hide its slippage, and only then. -/
theorem isOptimal_iff (h : FirstLeast (routeOffer s amount) LiquidityPath.cost
    (findAllPaths s.prices.pairsList src dst) path r) : IsOptimal s src dst amount r ↔
      slippageAlong exactVolume s amount path ≤ SLIPPAGE_TOLERANCE_BPS := by
  obtain ⟨hmem, hoffer⟩ := h.offer_eq
  obtain ⟨rfl, hslippage, hle, hfees⟩ := routeOffer_some hoffer
  constructor
  · intro hoptimal
    rw [← hoptimal.slippage]
    exact hoptimal.tolerance
  · intro hexact
    refine ⟨hmem, hslippage.trans (slippageAlong_cast hexact), by omega, hfees, fun path hpath htolerated => ?_⟩
    have hcast := slippageAlong_cast htolerated
    rcases hother : routeOffer s amount path with _ | other
    · have hfar := routeOffer_none.mp hother
      omega
    · obtain ⟨-, hslippage', -, hfees'⟩ := routeOffer_some hother
      have hleast := h.least path hpath other hother
      unfold LiquidityPath.cost at *
      omega

/-- What a call returns: the cached route, or else the one that the search chooses. -/
theorem findOptimalPath_cases (src dst : Asset) (amount : Int) (w : World) :
    (∃ r, w.store.monitor.cachedPaths.lookup (src, dst) = some r ∧ findOptimalPath src dst amount w = (.ok r, w)) ∨
    w.store.monitor.cachedPaths.lookup (src, dst) = none ∧
      ((∃ w', findOptimalPath src dst amount w = (.error .panic, w')) ∨
        (chosenRoute w.store src dst amount = none ∧
          findOptimalPath src dst amount w = (.error (err .noPathFound), w)) ∨
        ∃ r, chosenRoute w.store src dst amount = some r ∧ findOptimalPath src dst amount w = (.ok r,
          { w with store.monitor.cachedPaths := w.store.monitor.cachedPaths.insert (src, dst) r })) := by
  unfold findOptimalPath
  rw [bind_load_eq]
  rcases hcached : w.store.monitor.cachedPaths.lookup (src, dst) with _ | r
  · refine .inr ⟨rfl, ?_⟩
    dsimp only
    rw [searchRoute, bind_load_eq]
    rcases findRoute_computes (w := w) src dst amount with hfound | ⟨w', htrap⟩
    · rw [Tx.bind_of_ok hfound]
      rcases chosenRoute w.store src dst amount with _ | r
      · exact .inr (.inl ⟨rfl, rfl⟩)
      · exact .inr (.inr ⟨r, rfl, rfl⟩)
    · exact .inl ⟨w', Tx.bind_of_error htrap⟩
  · exact .inl ⟨r, rfl, rfl⟩

theorem returnsOptimal_iff {ev : Event} (h : Routing w ev) : ReturnsOptimal w ev ↔ Unspoiled w ev := by
  cases ev with
  | call _ c =>
    cases c with
    | findOptimalPath src dst amount =>
      unfold ReturnsOptimal Unspoiled
      dsimp only
      rcases findOptimalPath_cases src dst amount w with
        ⟨r, hcached, hrun⟩ | ⟨hcached, ⟨w', hrun⟩ | ⟨hchosen, hrun⟩ | ⟨r, hchosen, hrun⟩⟩
      · rw [hcached, hrun]
      · exact absurd (congrArg Prod.fst hrun) h.2
      · rw [hcached, hrun]
        obtain ⟨-, hnone⟩ := scanLeast_none hchosen
        refine iff_of_true ⟨rfl, fun path hpath => ?_⟩ ?_
        · by_contra hle
          have hfar := routeOffer_none.mp (hnone path hpath)
          rw [slippageAlong_cast (not_lt.mp hle)] at hfar
          exact hle hfar
        · intro path r hfirst
          have hoffer := hnone path hfirst.offer_eq.1
          rw [hfirst.offer_eq.2] at hoffer
          cases hoffer
      · rw [hcached, hrun]
        obtain ⟨path, hfirst⟩ := scanLeast_some hchosen
        dsimp only
        rw [isOptimal_iff hfirst]
        constructor
        · intro hle path' r' hfirst'
          obtain rfl := hfirst.unique hfirst'
          exact hle
        · exact fun hfine => hfine path r hfirst
    | _ => exact Iff.rfl
  | advance => exact Iff.rfl
  | expire => exact Iff.rfl

theorem routeOffer_congr (hfeeds : s'.prices.feeds = s.prices.feeds) (amount : Int) (path : List AssetPair) :
    routeOffer s' amount path = routeOffer s amount path := by
  have hafter : afterHop castVolume s' = afterHop castVolume s := by
    funext amount hop
    rw [afterHop, afterHop, hfeeds]
  have hslippage (amount : Int) :
      slippageAlong castVolume s' amount path = slippageAlong castVolume s amount path := by
    induction path generalizing amount with
    | nil => rfl
    | cons hop path ih => rw [slippageAlong, slippageAlong, hafter, ih]
  rw [routeOffer, routeOffer, hslippage]

/-- Every route that is cached was chosen by an earlier call for the two assets. -/
def ChosenBefore (hist : List (World × Event)) (w : World) : Prop :=
  ∀ src dst r, w.store.monitor.cachedPaths.lookup (src, dst) = some r → ∃ e ∈ hist, ∃ env amount path,
    e.2 = .call env (.findOptimalPath src dst amount) ∧
    FirstLeast (routeOffer w.store amount) LiquidityPath.cost (findAllPaths w.store.prices.pairsList src dst) path r

/-- It stays so while the prices stay and no route is cached. -/
theorem ChosenBefore.kept {hist : List (World × Event)} {ev : Event} (h : ChosenBefore hist w)
    (hfeeds : w'.store.prices.feeds = w.store.prices.feeds)
    (hpairs : w'.store.prices.pairsList = w.store.prices.pairsList)
    (hcache : ∀ assets r, w'.store.monitor.cachedPaths.lookup assets = some r →
      w.store.monitor.cachedPaths.lookup assets = some r) : ChosenBefore ((w, ev) :: hist) w' := by
  intro src dst r hr
  obtain ⟨e, he, env, amount, path, hcall, hfirst⟩ := h src dst r (hcache (src, dst) r hr)
  rw [hpairs]
  exact ⟨e, mem_cons_of_mem _ he, env, amount, path, hcall,
    hfirst.congr fun path _ => routeOffer_congr hfeeds amount path⟩

/-- The call that caches a route chose it. -/
theorem ChosenBefore.found {hist : List (World × Event)} {r : LiquidityPath} (h : ChosenBefore hist w) (env : Env)
    (hchosen : chosenRoute w.store src dst amount = some r) :
    ChosenBefore ((w, .call env (.findOptimalPath src dst amount)) :: hist)
      { w with store.monitor.cachedPaths := w.store.monitor.cachedPaths.insert (src, dst) r } := by
  intro src' dst' r' hr'
  dsimp only at hr'
  rw [Store.lookup_insert_eq] at hr'
  split at hr'
  · rename_i hkey
    cases hkey
    cases hr'
    obtain ⟨path, hfirst⟩ := scanLeast_some hchosen
    exact ⟨_, mem_cons_self, env, amount, path, rfl, hfirst.congr fun path _ => routeOffer_congr (by rfl) amount path⟩
  · obtain ⟨e, he, env', amount', path, hcall, hfirst⟩ := h src' dst' r' hr'
    exact ⟨e, mem_cons_of_mem _ he, env', amount', path, hcall,
      hfirst.congr fun path _ => routeOffer_congr (by rfl) amount' path⟩

/-- A call changes nothing, or caches the route that it chooses. -/
theorem next_findOptimalPath (env : Env) (w : World) (src dst : Asset) (amount : Int) :
    next w (.call env (.findOptimalPath src dst amount)) = w ∨
    ∃ r, chosenRoute w.store src dst amount = some r ∧ next w (.call env (.findOptimalPath src dst amount)) =
      { w with store.monitor.cachedPaths := w.store.monitor.cachedPaths.insert (src, dst) r } := by
  rcases Tx.exec_cases (Tx.void (findOptimalPath src dst amount)) w with ⟨u, hrun⟩ | hrun
  · obtain ⟨r, hrun⟩ := Tx.void_ok.mp hrun
    rcases findOptimalPath_cases src dst amount w with
      ⟨r', -, heq⟩ | ⟨-, ⟨w', heq⟩ | ⟨-, heq⟩ | ⟨r', hchosen, heq⟩⟩
    · rw [heq] at hrun
      exact .inl (Prod.mk.inj hrun).2.symm
    · rw [heq] at hrun
      cases hrun
    · rw [heq] at hrun
      cases hrun
    · rw [heq] at hrun
      exact .inr ⟨r', hchosen, (Prod.mk.inj hrun).2.symm⟩
  · exact .inl hrun

theorem ChosenBefore.step {hist : List (World × Event)} {ev : Event} (h : ChosenBefore hist w)
    (hstep : PathStep w ev w') : ChosenBefore ((w, ev) :: hist) w' := by
  obtain ⟨⟨-, rfl⟩, hrouting⟩ := hstep
  cases ev with
  | call env c =>
    cases c with
    | findOptimalPath src dst amount =>
      rcases next_findOptimalPath env w src dst amount with hw | ⟨r, hchosen, hw⟩
      · rw [hw]
        exact h.kept rfl rfl fun _ _ hr => hr
      · rw [hw]
        exact h.found env hchosen
    | _ => exact absurd hrouting id
  | advance => exact h.kept rfl rfl fun _ _ hr => hr
  | expire _ assets =>
    refine h.kept rfl rfl fun key r hr => ?_
    change (w.store.monitor.cachedPaths.erase assets).lookup key = some r at hr
    rw [Store.lookup_erase_eq] at hr
    split at hr
    · cases hr
    · exact hr

/-- A route that was chosen for an amount of the same slippage is the one that is chosen now. -/
theorem ChosenBefore.unspoiled {hist : List (World × Event)} {ev : Event} (h : ChosenBefore hist w)
    (hsteady : Steady hist w ev) : Unspoiled w ev := by
  cases ev with
  | call _ c =>
    cases c with
    | findOptimalPath src dst amount =>
      obtain ⟨hfine, hsame⟩ := hsteady
      unfold Unspoiled
      dsimp only
      split
      · rename_i r hcached
        obtain ⟨e, he, env', amount₀, path, hcall, hfirst⟩ := h src dst r hcached
        have hnow := hfirst.congr fun path hpath => show routeOffer w.store amount path = _ by
          rw [routeOffer, routeOffer, hsame e he env' amount₀ hcall path hpath]
        exact (isOptimal_iff hnow).mpr (hfine path r hnow)
      · exact hfine
    | _ => trivial
  | advance => trivial
  | expire => trivial

end Optimal

/-- The routes that are found are the simple paths. In a run of searches every call returns an optimal route, or
none if none is within the tolerance, exactly if what is cached for it is optimal or the cast does not hide the
slippage of the route that is chosen. From an empty cache it does if no earlier call for the same assets asked for an
amount of another slippage. -/
theorem optimalPaths_iff {w₀ w : World} {hist : List (World × Event)} (h : Trace PathStep w₀ hist w) :
    (∀ graph src dst hops, hops ∈ findAllPaths graph src dst ↔ SimpleRoute graph src dst hops) ∧
    (Trace.Every (fun _ w ev => ReturnsOptimal w ev) hist ↔ Trace.Every (fun _ w ev => Unspoiled w ev) hist) ∧
    (w₀.store.monitor.cachedPaths = ∅ → Trace.Every Steady hist →
      Trace.Every (fun _ w ev => ReturnsOptimal w ev) hist) := by
  refine ⟨fun _ _ _ _ => mem_findAllPaths, ⟨?_, ?_⟩, ?_⟩
  · exact h.every_imp (I := fun _ _ => True) trivial (fun _ _ _ _ _ _ => trivial)
      fun _ _ _ _ _ hs => (returnsOptimal_iff hs.2).mp
  · exact h.every_imp (I := fun _ _ => True) trivial (fun _ _ _ _ _ _ => trivial)
      fun _ _ _ _ _ hs => (returnsOptimal_iff hs.2).mpr
  · intro hempty
    refine h.every_imp (I := ChosenBefore) ?_ (fun _ _ _ _ hI hs => hI.step hs)
      fun _ _ _ _ hI hs hsteady => (returnsOptimal_iff hs.2).mpr (hI.unspoiled hsteady)
    intro src dst r hr
    rw [hempty] at hr
    exact absurd hr Store.lookup_empty_ne

namespace Sample

/-- A price of `1` for the only pair. -/
def evenly : World := next ready (.call (signedBy mallory) (.setPrice pair 10000000))

def search (units : Int) : Event := .call (signedBy mallory) (.findOptimalPath usdc xlm (units * PRECISION))

def twoSearches (units₁ units₂ : Int) : List (World × Event) :=
  [(next evenly (search units₁), search units₂), (evenly, search units₁)]

/-- The route for `100` units is returned for a billion, with the estimate for `100`. -/
theorem route_of_small_amount : ¬ ∀ w₀ w hist, w₀.store.monitor.cachedPaths = ∅ → Trace PathStep w₀ hist w →
    Trace.Every (fun _ w ev => ReturnsOptimal w ev) hist := by
  intro h
  have hrun : Trace PathStep evenly (twoSearches 100 1000000000)
      (next (next evenly (search 100)) (search 1000000000)) :=
    (Trace.nil.snoc ⟨⟨trivial, rfl⟩, ⟨by decide, by decide +kernel⟩⟩).snoc
      ⟨⟨trivial, rfl⟩, ⟨by decide, by decide +kernel⟩⟩
  have hreturns : ReturnsOptimal (next evenly (search 100)) (search 1000000000) := (h _ _ _ rfl hrun).1
  have hresult : (findOptimalPath usdc xlm (1000000000 * PRECISION) (next evenly (search 100))).1 =
      .ok ⟨[pair], 10000000000000, 10, 30⟩ := by decide +kernel
  unfold ReturnsOptimal search at hreturns
  dsimp only at hreturns
  rw [show next evenly (.call (signedBy mallory) (.findOptimalPath usdc xlm (100 * PRECISION))) =
    next evenly (search 100) from rfl, hresult] at hreturns
  exact absurd hreturns.slippage (by decide +kernel)

theorem nothing_hidden {w : World} {amount : Int}
    (h : ∀ path ∈ findAllPaths w.store.prices.pairsList usdc xlm,
      slippageAlong exactVolume w.store amount path ≤ SLIPPAGE_TOLERANCE_BPS) :
    NoHiddenSlippage w.store usdc xlm amount := fun path _ hfirst => h path hfirst.offer_eq.1

/-- Two amounts without a slippage that depends on them: both calls return an optimal route. -/
theorem routes_of_small_amounts :
    (Trace.Every (fun _ w ev => ReturnsOptimal w ev) (twoSearches 100 200) ↔
      Trace.Every (fun _ w ev => Unspoiled w ev) (twoSearches 100 200)) ∧
    Trace.Every (fun _ w ev => ReturnsOptimal w ev) (twoSearches 100 200) := by
  have hrun : Trace PathStep evenly (twoSearches 100 200) (next (next evenly (search 100)) (search 200)) :=
    (Trace.nil.snoc ⟨⟨trivial, rfl⟩, ⟨by decide, by decide +kernel⟩⟩).snoc
      ⟨⟨trivial, rfl⟩, ⟨by decide, by decide +kernel⟩⟩
  have hsame : ∀ path ∈ findAllPaths (next evenly (search 100)).store.prices.pairsList usdc xlm,
      slippageAlong castVolume (next evenly (search 100)).store (100 * PRECISION) path =
        slippageAlong castVolume (next evenly (search 100)).store (200 * PRECISION) path := by decide +kernel
  have hsteady : Trace.Every Steady (twoSearches 100 200) := by
    refine ⟨⟨nothing_hidden (by decide +kernel), ?_⟩, ⟨nothing_hidden (by decide +kernel), ?_⟩, trivial⟩
    · intro e he env amount₀ hcall
      obtain rfl := List.mem_singleton.mp he
      cases hcall
      exact hsame
    · intro e he
      cases he
  obtain ⟨-, hiff, hoptimal⟩ := optimalPaths_iff hrun
  exact ⟨hiff, hoptimal rfl hsteady⟩
end Sample

end CallStake.Oracle
