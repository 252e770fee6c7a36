import CallStake.Bridge.Entrypoints
import CallStake.Lib.Meter

/-!
# The limits on the volume of the bridge

Transfers of both directions are counted in the day they are initiated in and in the window of their route.

* `initiation`: what an accepted event initiates; `limits_step`: what a step does to the counters.
* `dayEntries`, `routeEntries`: the initiations of a history as entries of a meter.
* `VolumeLimited`: the limits, over whole runs. A limit of a message of `0` is no limit, a buffer of
  `i128::MAX` counts as unset, and counters saturate (`Sample.limits_have_exceptions`).
* `volume_limited`: every run has them.
-/

namespace CallStake.Bridge

open Meter List

/-! ## Initiations -/

section Initiations

variable (host : Host)

/-- The route and the amount that the event, taken in the world, initiates. -/
def initiation (e : World × Event) : Option (Route × Int) :=
  match e.2 with
  | .call _ (.initiateLockMint _ source destination _ wrapped amount ..) =>
    if Accepted host e.1 e.2 then some ((source, destination, wrapped), amount) else none
  | .call _ (.initiateBurnUnlock _ source destination _ wrapped amount _) =>
    if Accepted host e.1 e.2 then some ((source, destination, wrapped), amount) else none
  | _ => none

/-- The start of the stored window of a route. -/
def windowStart (w : World) (route : Route) : Nat :=
  ((w.store.limits.withdrawalWindows.lookup route).map (·.windowStart)).getD 0

/-- The entry of an event in the days. -/
def dayEntry (e : World × Event) : Option Entry :=
  (initiation host e).map fun i => ⟨e.1.ledger.timestamp, dayBucket e.1.ledger.timestamp, i.2⟩

/-- The entry of an event in the windows of a route: the window is the one that is stored with it. -/
def routeEntry (route : Route) (e : World × Event) : Option Entry :=
  match initiation host e with
  | some (r, amount) =>
    if r = route then some ⟨e.1.ledger.timestamp, windowStart (next host e.1 e.2) route, amount⟩ else none
  | none => none

def dayEntries (hist : List (World × Event)) : List Entry := hist.filterMap (dayEntry host)

def routeEntries (route : Route) (hist : List (World × Event)) : List Entry := hist.filterMap (routeEntry host route)

end Initiations

/-! ## The property -/

/-- A transfer is within the limits on a single one. -/
structure SingleLimits (w : World) (route : Route) (amount : Int) : Prop where
  transfer : ∃ config, w.store.config = some config ∧ 0 < amount ∧ amount ≤ config.security.maxTransferAmount
  message : ∀ cfg ∈ w.store.settings.withdrawalRouteConfigs.lookup route,
    0 < cfg.perMessageLimit → amount ≤ cfg.perMessageLimit
  buffer : ∀ buffer ∈ w.store.settings.liquidityBuffer, buffer ≠ i128Max → amount ≤ max (buffer.tdiv 10) 1

/-- A part of a run, in which the limits of a route are constant. -/
structure RouteLimited (host : Host) (route : Route) (cfg : WithdrawalRouteConfig)
    (part : List (World × Event)) : Prop where
  window : ∀ start, min i128Max (sumOf (·.start = start) (routeEntries host route part)) ≤ cfg.aggregateWindowLimit
  interval : cfg.aggregateWindowLimit < i128Max → ∀ a,
    sumOf (fun e => a ≤ e.time ∧ e.time < a + cfg.windowSeconds) (routeEntries host route part) ≤
      2 * cfg.aggregateWindowLimit

/-- The limits, over a whole run. -/
structure VolumeLimited (host : Host) (hist : List (World × Event)) (w : World) : Prop where
  daily : ∀ config ∈ w.store.config, ∀ day,
    min i128Max (sumOf (·.start = day) (dayEntries host hist)) ≤ config.security.dailyTransferLimit
  route : ∀ part earlier, hist = part ++ earlier → ∀ route cfg,
    (∀ e ∈ part, e.1.store.settings.withdrawalRouteConfigs.lookup route = some cfg) →
    0 < cfg.aggregateWindowLimit → 0 < cfg.windowSeconds → RouteLimited host route cfg part
  single : ∀ e ∈ hist, ∀ route amount, initiation host e = some (route, amount) → SingleLimits e.1 route amount
  rejected : ∀ e ∈ hist, ∀ auth c, e.2 = .call auth c → ¬ Accepted host e.1 e.2 → next host e.1 e.2 = e.1

/-! ## Steps -/

theorem addOrMax_eq {a b : Int} (ha : 0 ≤ a) (hb : 0 ≤ b) : addOrMax a b = min i128Max (a + b) := by
  unfold addOrMax checkedAdd checked
  have hmin : i128Min ≤ a + b := by unfold i128Min; omega
  by_cases hle : a + b ≤ i128Max
  · rw [if_pos ⟨hmin, hle⟩, Option.getD_some]
    omega
  · rw [if_neg fun h => hle h.2, Option.getD_none]
    omega

section Steps

variable {host : Host} {w w' : World} {ev : Event}

theorem initiation_rejected (h : ¬ Accepted host w ev) : initiation host (w, ev) = none := by
  unfold initiation
  split
  · exact if_neg h
  · exact if_neg h
  · rfl

/-- A step counts an initiation, or leaves the counters alone: the day is only set up before the first
transfer, and a window is only set up for a route that had none. -/
theorem limits_step (hs : Step host w ev w') :
    (∃ route amount config n, initiation host (w, ev) = some (route, amount) ∧
      Admitted w config amount route ∧ w'.store.limits = charged w amount route ∧ w'.ledger = w.ledger ∧
      w'.store.config = some { config with nextTransferId := n }) ∨
    (initiation host (w, ev) = none ∧ w.ledger.Before w'.ledger ∧
      ((w'.store.limits.dailyVolume = w.store.limits.dailyVolume ∧ w'.store.config = w.store.config) ∨
        (w.store.config = none ∧ w'.store.limits.dailyVolume = some ⟨dayBucket w.ledger.timestamp, 0⟩ ∧
          ∃ config, w'.store.config = some config ∧ 0 < config.security.dailyTransferLimit)) ∧
      ∀ route, w'.store.limits.withdrawalWindows.lookup route =
          w.store.limits.withdrawalWindows.lookup route ∨
        (w.store.limits.withdrawalWindows.lookup route = none ∧
          w'.store.limits.withdrawalWindows.lookup route = some ⟨w.ledger.timestamp, 0⟩)) := by
  have hrefl : w.ledger.Before w.ledger := ⟨Nat.le_refl _, Nat.le_refl _⟩
  obtain ⟨auth, c, rfl, haccepted, he⟩ | ⟨hrejected, hstore, hbefore⟩ := step_effect hs
  · cases he with
    | @settled c settings limits hc hlimits =>
      refine .inr ⟨(by cases c <;> first | rfl | cases hc), hrefl, ?_, fun route => ?_⟩
      · rcases hlimits with rfl | ⟨r, hnone, rfl⟩
        · exact .inl ⟨rfl, rfl⟩
        · exact .inl ⟨rfl, rfl⟩
      · rcases hlimits with rfl | ⟨r, hnone, rfl⟩
        · exact .inl rfl
        · by_cases heq : route = r
          · subst heq
            exact .inr ⟨hnone, AList.lookup_insert _⟩
          · exact .inl (AList.lookup_insert_ne heq)
    | initialized hnone _ _ _ hlimit =>
      exact .inr ⟨rfl, hrefl, .inr ⟨hnone, rfl, _, rfl, hlimit⟩, fun _ => .inl rfl⟩
    | @locked user source destination asset wrapped amount hash nonce recipient config t ht hadm =>
      refine .inl ⟨(source, destination, wrapped), amount, config, _, if_pos haccepted, hadm, ?_, rfl, rfl⟩
      subst ht
      rfl
    | @burned user source destination asset wrapped amount recipient config t ht hadm =>
      refine .inl ⟨(source, destination, wrapped), amount, config, _, if_pos haccepted, hadm, ?_, rfl, rfl⟩
      subst ht
      rfl
    | @approved kind =>
      exact .inr ⟨by cases kind <;> rfl, hrefl, .inl ⟨rfl, rfl⟩, fun _ => .inl rfl⟩
    | minted => exact .inr ⟨rfl, hrefl, .inl ⟨rfl, rfl⟩, fun _ => .inl rfl⟩
    | unlocked => exact .inr ⟨rfl, hrefl, .inl ⟨rfl, rfl⟩, fun _ => .inl rfl⟩
    | failed => exact .inr ⟨rfl, hrefl, .inl ⟨rfl, rfl⟩, fun _ => .inl rfl⟩
    | retried => exact .inr ⟨rfl, hrefl, .inl ⟨rfl, rfl⟩, fun _ => .inl rfl⟩
  · refine .inr ⟨initiation_rejected hrejected, hbefore, .inl ⟨by rw [hstore], by rw [hstore]⟩, fun route => ?_⟩
    exact .inl (by rw [hstore])

/-! ## Days -/

theorem dayBucket_mono {a b : Nat} (h : a ≤ b) : dayBucket a ≤ dayBucket b :=
  Nat.mul_le_mul_right _ (Nat.div_le_div_right h)

/-- The counter of the day counts the initiations of its day. -/
structure DayCounted (config : BridgeConfig) (entries : List Entry) (w : World) (v : DailyVolume) : Prop where
  stored : w.store.limits.dailyVolume = some v
  limit : 0 < config.security.dailyTransferLimit
  past : v.dayStart ≤ dayBucket w.ledger.timestamp
  metered : Metered config.security.dailyTransferLimit entries v.dayStart v.totalAmount

/-- Nothing is initiated before the configuration, and what is initiated then is counted. -/
structure DayInv (host : Host) (hist : List (World × Event)) (w : World) : Prop where
  unset : w.store.config = none → dayEntries host hist = []
  counted : ∀ config, w.store.config = some config → ∃ v, DayCounted config (dayEntries host hist) w v

/-- The meter of the day, after a new day was started if there is one. -/
theorem DayCounted.current {config : BridgeConfig} {entries : List Entry} {v : DailyVolume}
    (h : DayCounted config entries w v) :
    (currentVolume w.store.limits.dailyVolume w.ledger.timestamp).dayStart =
        dayBucket w.ledger.timestamp ∧
      Metered config.security.dailyTransferLimit entries (dayBucket w.ledger.timestamp)
        (currentVolume w.store.limits.dailyVolume w.ledger.timestamp).totalAmount := by
  have hpast := h.past
  unfold currentVolume
  rw [h.stored, Option.getD_some]
  by_cases hday : v.dayStart = dayBucket w.ledger.timestamp
  · rw [if_neg (not_not.mpr hday)]
    refine ⟨hday, ?_⟩
    rw [← hday]
    exact h.metered
  · rw [if_pos hday]
    exact ⟨rfl, h.metered.restart (Nat.lt_of_le_of_ne hpast hday)⟩

theorem DayInv.step {hist : List (World × Event)} (h : DayInv host hist w) (hs : Step host w ev w') :
    DayInv host ((w, ev) :: hist) w' := by
  obtain ⟨route, amount, config, n, hinit, hadm, hlimits, hledger, hconfig'⟩ |
    ⟨hinit, hbefore, hday, -⟩ := limits_step hs
  · obtain ⟨v, hv⟩ := h.counted config hadm.configured
    obtain ⟨hstart, hmeter⟩ := hv.current
    have hentries : dayEntries host ((w, ev) :: hist) =
        ⟨w.ledger.timestamp, dayBucket w.ledger.timestamp, amount⟩ :: dayEntries host hist :=
      filterMap_cons_some (by rw [dayEntry, hinit]; rfl)
    have hsum := addOrMax_eq hmeter.total_nonneg (Int.le_of_lt hadm.pos)
    have hle := hadm.day
    rw [hsum] at hle
    refine ⟨fun hnone => (by rw [hnone] at hconfig'; cases hconfig'), fun config' hc => ?_⟩
    obtain rfl : _ = config' := Option.some.inj (hconfig'.symm.trans hc)
    have hstored := congrArg Limits.dailyVolume hlimits
    simp only [charged, hsum, hstart] at hstored
    refine ⟨_, hstored, hv.limit, ?_, ?_⟩
    · rw [hledger]
    · rw [hentries]
      exact hmeter.charge (Int.le_of_lt hadm.pos) hle
  · have hentries : dayEntries host ((w, ev) :: hist) = dayEntries host hist :=
      filterMap_cons_none (by rw [dayEntry, hinit]; rfl)
    have hlater := dayBucket_mono hbefore.1
    obtain ⟨hsame, hconfig⟩ | ⟨hnone, hvolume, config, hconfig, hlimit⟩ := hday
    · refine ⟨fun hnone => ?_, fun config hc => ?_⟩
      · rw [hentries]
        exact h.unset (hconfig.symm.trans hnone)
      · obtain ⟨v, hv⟩ := h.counted config (hconfig.symm.trans hc)
        rw [hentries]
        exact ⟨v, hsame.trans hv.stored, hv.limit, Nat.le_trans hv.past hlater, hv.metered⟩
    · refine ⟨fun hnone' => (by rw [hnone'] at hconfig; cases hconfig), fun config' hc => ?_⟩
      obtain rfl : config = config' := Option.some.inj (hconfig.symm.trans hc)
      rw [hentries, h.unset hnone]
      exact ⟨_, hvolume, hlimit, hlater, .empty (Int.le_of_lt hlimit) (Int.le_refl 0)⟩

/-! ## Windows -/

/-- Stored windows start in the past, and count from zero. -/
def WindowsSound (w : World) : Prop :=
  ∀ route win, w.store.limits.withdrawalWindows.lookup route = some win →
    win.windowStart ≤ w.ledger.timestamp ∧ 0 ≤ win.totalVolume

/-- A window is started again, from nothing, when there is none or the stored one has expired. -/
theorem currentWindow_cases (stored : Option WithdrawalWindow) (width now : Nat) :
    (currentWindow stored width now = ⟨now, 0⟩ ∧ ∀ win, stored = some win → width ≤ now - win.windowStart) ∨
    (∃ win, stored = some win ∧ now - win.windowStart < width ∧ currentWindow stored width now = win) := by
  unfold currentWindow
  cases stored with
  | none =>
    refine .inl ⟨?_, nofun⟩
    rw [Option.getD_none]
    exact ite_self _
  | some win =>
    rw [Option.getD_some]
    by_cases hexpired : width ≤ now - win.windowStart
    · rw [if_pos hexpired]
      refine .inl ⟨rfl, fun win' heq => ?_⟩
      cases heq
      exact hexpired
    · rw [if_neg hexpired]
      exact .inr ⟨win, rfl, Nat.not_le.mp hexpired, rfl⟩

theorem lookup_chargedWindows_ne {amount : Int} {route route' : Route} (hne : route' ≠ route) :
    (chargedWindows w amount route).lookup route' = w.store.limits.withdrawalWindows.lookup route' := by
  unfold chargedWindows
  split
  · rfl
  · split
    · exact AList.lookup_insert_ne hne
    · rfl

/-- The window of a route with limits after a transfer was counted. -/
theorem lookup_chargedWindows {amount : Int} {route : Route} {cfg : WithdrawalRouteConfig}
    (hcfg : w.store.settings.withdrawalRouteConfigs.lookup route = some cfg)
    (hlimit : 0 < cfg.aggregateWindowLimit) (hwidth : 0 < cfg.windowSeconds) :
    (chargedWindows w amount route).lookup route = some
      ⟨(currentWindow (w.store.limits.withdrawalWindows.lookup route) cfg.windowSeconds
          w.ledger.timestamp).windowStart,
        addOrMax (currentWindow (w.store.limits.withdrawalWindows.lookup route) cfg.windowSeconds
          w.ledger.timestamp).totalVolume amount⟩ := by
  unfold chargedWindows
  rw [hcfg]
  dsimp only
  rw [if_pos ⟨hlimit, hwidth⟩, AList.lookup_insert]

theorem WindowsSound.current (h : WindowsSound w) (route : Route) (width : Nat) :
    (currentWindow (w.store.limits.withdrawalWindows.lookup route) width w.ledger.timestamp).windowStart ≤
        w.ledger.timestamp ∧
      0 ≤ (currentWindow (w.store.limits.withdrawalWindows.lookup route) width
        w.ledger.timestamp).totalVolume := by
  obtain ⟨heq, -⟩ | ⟨win, hwin, -, heq⟩ :=
    currentWindow_cases (w.store.limits.withdrawalWindows.lookup route) width w.ledger.timestamp
  · rw [heq]
    exact ⟨Nat.le_refl _, Int.le_refl 0⟩
  · rw [heq]
    exact h route win hwin

theorem WindowsSound.step (h : WindowsSound w) (hs : Step host w ev w') : WindowsSound w' := by
  intro route win hwin
  obtain ⟨r, amount, config, n, -, hadm, hlimits, hledger, -⟩ | ⟨-, hbefore, -, hwindows⟩ := limits_step hs
  · rw [hlimits] at hwin
    rw [hledger]
    have hwin : (chargedWindows w amount r).lookup route = some win := hwin
    by_cases hne : route = r
    · subst hne
      unfold chargedWindows at hwin
      split at hwin
      · exact h route win hwin
      · rename_i cfg hcfg
        split at hwin
        · obtain ⟨hstart, htotal⟩ := h.current route cfg.windowSeconds
          rw [AList.lookup_insert] at hwin
          cases hwin
          refine ⟨hstart, ?_⟩
          dsimp only
          rw [addOrMax_eq htotal (Int.le_of_lt hadm.pos)]
          have := hadm.pos
          unfold i128Max
          omega
        · exact h route win hwin
    · rw [lookup_chargedWindows_ne hne] at hwin
      exact h route win hwin
  · obtain hsame | ⟨-, hnew⟩ := hwindows route
    · rw [hsame] at hwin
      obtain ⟨hstart, htotal⟩ := h route win hwin
      exact ⟨Nat.le_trans hstart hbefore.1, htotal⟩
    · rw [hnew] at hwin
      cases hwin
      exact ⟨hbefore.1, Int.le_refl 0⟩

/-- The window of a route counts the initiations of a part of a run that lie in it. -/
structure WindowCounted (cfg : WithdrawalRouteConfig) (entries : List Entry) (win : WithdrawalWindow) : Prop where
  metered : Metered cfg.aggregateWindowLimit entries win.windowStart win.totalVolume
  spaced : Spaced cfg.windowSeconds entries win.windowStart

/-- There is a window as soon as there is an initiation, and it counts them. -/
structure WindowInv (host : Host) (route : Route) (cfg : WithdrawalRouteConfig) (part : List (World × Event))
    (w : World) : Prop where
  sound : WindowsSound w
  unset : w.store.limits.withdrawalWindows.lookup route = none → routeEntries host route part = []
  counted : ∀ win, w.store.limits.withdrawalWindows.lookup route = some win →
    WindowCounted cfg (routeEntries host route part) win

section Window

variable {route : Route} {cfg : WithdrawalRouteConfig} {part : List (World × Event)}

/-- The meter of the window, after it was started again if it had to be. -/
theorem WindowInv.current (h : WindowInv host route cfg part w) (hlimit : 0 < cfg.aggregateWindowLimit)
    (hwidth : 0 < cfg.windowSeconds) :
    WindowCounted cfg (routeEntries host route part) (currentWindow
      (w.store.limits.withdrawalWindows.lookup route) cfg.windowSeconds w.ledger.timestamp) ∧
    w.ledger.timestamp < (currentWindow (w.store.limits.withdrawalWindows.lookup route) cfg.windowSeconds
      w.ledger.timestamp).windowStart + cfg.windowSeconds := by
  obtain ⟨heq, hexpired⟩ | ⟨win, hwin, hlt, heq⟩ :=
    currentWindow_cases (w.store.limits.withdrawalWindows.lookup route) cfg.windowSeconds w.ledger.timestamp
  · rw [heq]
    refine ⟨?_, Nat.lt_add_of_pos_right hwidth⟩
    cases hwin : w.store.limits.withdrawalWindows.lookup route with
    | none =>
      rw [h.unset hwin]
      exact ⟨.empty (Int.le_of_lt hlimit) (Int.le_refl 0), .empty⟩
    | some win =>
      have hwide := hexpired win hwin
      obtain ⟨hmetered, hspaced⟩ := h.counted win hwin
      exact ⟨hmetered.restart (show win.windowStart < w.ledger.timestamp by omega),
        hspaced.restart (show win.windowStart + cfg.windowSeconds ≤ w.ledger.timestamp by omega)⟩
  · rw [heq]
    exact ⟨h.counted win hwin, by omega⟩

theorem WindowInv.step (h : WindowInv host route cfg part w) (hs : Step host w ev w')
    (hcfg : w.store.settings.withdrawalRouteConfigs.lookup route = some cfg)
    (hlimit : 0 < cfg.aggregateWindowLimit) (hwidth : 0 < cfg.windowSeconds) :
    WindowInv host route cfg ((w, ev) :: part) w' := by
  have hsound := h.sound.step hs
  obtain ⟨r, amount, config, n, hinit, hadm, hlimits, hledger, -⟩ | ⟨hinit, -, -, hwindows⟩ := limits_step hs
  · by_cases hne : route = r
    · subst hne
      -- the amount is charged to the window of the route
      have hstored : w'.store.limits.withdrawalWindows.lookup route =
          (chargedWindows w amount route).lookup route := by rw [hlimits]; rfl
      rw [lookup_chargedWindows hcfg hlimit hwidth] at hstored
      obtain ⟨⟨hmetered, hspaced⟩, hlt⟩ := h.current hlimit hwidth
      have hle := hadm.window cfg hcfg hlimit hwidth
      have hstart := (h.sound.current route cfg.windowSeconds).1
      rw [addOrMax_eq hmetered.total_nonneg (Int.le_of_lt hadm.pos)] at hle hstored
      have hentry : routeEntry host route (w, ev) =
          some ⟨w.ledger.timestamp, windowStart w' route, amount⟩ := by
        rw [routeEntry, hinit, hs.2]
        exact if_pos rfl
      rw [windowStart, hstored, Option.map_some, Option.getD_some] at hentry
      have hentries := filterMap_cons_some (l := part) hentry
      refine ⟨hsound, fun hnone => (by rw [hnone] at hstored; cases hstored), fun win hwin => ?_⟩
      rw [hstored] at hwin
      cases hwin
      rw [routeEntries, hentries]
      exact ⟨hmetered.charge (Int.le_of_lt hadm.pos) hle, hspaced.charge hstart hlt⟩
    · have hsame : w'.store.limits.withdrawalWindows.lookup route =
          w.store.limits.withdrawalWindows.lookup route := by
        rw [hlimits]
        exact lookup_chargedWindows_ne hne
      have hentries : routeEntries host route ((w, ev) :: part) = routeEntries host route part := by
        refine filterMap_cons_none ?_
        rw [routeEntry, hinit]
        exact if_neg (Ne.symm hne)
      refine ⟨hsound, ?_, ?_⟩
      · rw [hsame, hentries]
        exact h.unset
      · rw [hsame, hentries]
        exact h.counted
  · have hentries : routeEntries host route ((w, ev) :: part) = routeEntries host route part :=
      filterMap_cons_none (by rw [routeEntry, hinit])
    -- nothing is initiated; a window may be set up empty
    obtain hsame | ⟨hnone, hnew⟩ := hwindows route
    · refine ⟨hsound, ?_, ?_⟩
      · rw [hsame, hentries]
        exact h.unset
      · rw [hsame, hentries]
        exact h.counted
    · refine ⟨hsound, fun hn => (by rw [hn] at hnew; cases hnew), fun win hwin => ?_⟩
      rw [hentries, h.unset hnone]
      rw [hnew] at hwin
      cases hwin
      exact ⟨.empty (Int.le_of_lt hlimit) (Int.le_refl 0), .empty⟩

end Window

theorem next_of_rejected {auth : Auth} {c : Call} (h : ¬ Accepted host w (.call auth c)) :
    next host w (.call auth c) = w := by
  obtain ⟨u, hok⟩ | hsame := Tx.exec_cases (invoke ⟨host, auth⟩ c) w
  · exact absurd (by rw [Accepted, hok]) h
  · exact hsame

end Steps

/-! ## Whole runs -/

section Runs

variable {host : Host} {ledger : Ledger} {hist : List (World × Event)} {w : World}

theorem windowsSound_of_run (h : Reaches (Step host) (.deployed ledger) w) : WindowsSound w :=
  h.invariant (fun route win hwin => by cases hwin) fun _ _ _ hw hs => hw.step hs

/-- In a part of a run with a constant limit of a route, no window is over the limit. -/
theorem routeLimited_of_run {part : List (World × Event)} {w₀ : World} {route : Route}
    {cfg : WithdrawalRouteConfig} (hsound : WindowsSound w₀) (h : Trace (Step host) w₀ part w)
    (hcfg : ∀ e ∈ part, e.1.store.settings.withdrawalRouteConfigs.lookup route = some cfg)
    (hlimit : 0 < cfg.aggregateWindowLimit) (hwidth : 0 < cfg.windowSeconds) :
    RouteLimited host route cfg part := by
  have hinit : WindowInv host route cfg [] w₀ :=
    ⟨hsound, fun _ => rfl, fun win hwin =>
      ⟨.empty (Int.le_of_lt hlimit) (hsound route win hwin).2, .empty⟩⟩
  have hinv : (∀ e ∈ part, e.1.store.settings.withdrawalRouteConfigs.lookup route = some cfg) →
      WindowInv host route cfg part w := by
    refine h.invariant (I := fun part w =>
      (∀ e ∈ part, e.1.store.settings.withdrawalRouteConfigs.lookup route = some cfg) →
        WindowInv host route cfg part w) (fun _ => hinit) fun part a ev b ha hs hcfg => ?_
    exact (ha fun e he => hcfg e (mem_cons_of_mem _ he)).step hs
      (hcfg _ (mem_cons_self ..)) hlimit hwidth
  have hw := hinv hcfg
  cases hwin : w.store.limits.withdrawalWindows.lookup route with
  | none =>
    have hempty := hw.unset hwin
    refine ⟨fun start => ?_, fun _ a => ?_⟩
    · rw [hempty, sumOf_nil]
      omega
    · rw [hempty, sumOf_nil]
      omega
  | some win =>
    obtain ⟨hmetered, hspaced⟩ := hw.counted win hwin
    exact ⟨hmetered.bounded, fun hmax a =>
      sumOf_interval_le hspaced hmetered.nonneg (hmetered.sumOf_le hmax) a⟩

/-- In every run the volumes stay within their limits: of the day, of a route in each of its windows and in
any interval of their width, and of a single transfer; and a rejected call changes nothing. -/
theorem volume_limited (h : Trace (Step host) (.deployed ledger) hist w) : VolumeLimited host hist w where
  daily config hconfig day := by
    have hinit : DayInv host [] (.deployed ledger) := ⟨fun _ => rfl, fun config hc => by cases hc⟩
    have hday := h.invariant hinit fun _ _ _ _ hd hs => hd.step hs
    obtain ⟨v, hv⟩ := hday.counted config hconfig
    exact hv.metered.bounded day
  route part earlier hsplit route cfg hcfg hlimit hwidth := by
    subst hsplit
    obtain ⟨w₀, hbefore, hpart⟩ := h.split_append
    exact routeLimited_of_run (windowsSound_of_run hbefore.reaches) hpart hcfg hlimit hwidth
  single e he route amount hinit := by
    obtain ⟨w', hs⟩ := h.mem_step e he
    obtain ⟨r, a, config, n, hinit', hadm, -⟩ | ⟨hnone, -⟩ := limits_step hs
    · rw [hinit] at hinit'
      cases hinit'
      exact ⟨⟨config, hadm.configured, hadm.pos, hadm.max⟩, hadm.message, hadm.buffer⟩
    · rw [hinit] at hnone
      cases hnone
  rejected e he auth c hcall hrejected := by
    obtain ⟨a, ev⟩ := e
    subst hcall
    exact next_of_rejected hrejected

end Runs

namespace Sample

def route : Route := (.ethereum, .polygon, weth)

/-- The second transfer does not fit in the window of the first, and the third comes in a new window. -/
def windows : List Event :=
  [call (.setWithdrawalRouteLimit admin route 400 600 3600), lock 400 [7] 1, lock 300 [8] 1, wait 3600,
    lock 300 [9] 1]

/-- Only the first and the third are counted, each in its own window. -/
theorem second_transfer_waits :
    VolumeLimited host (history windows) (final windows) ∧
      routeEntries host route (history windows) = [⟨3600, 3600, 300⟩, ⟨0, 0, 400⟩] := by
  have hrun : Reaches.Along (next host) Allowed (.deployed ⟨0, 0⟩) (started windows) := by decide +kernel
  exact ⟨volume_limited (trace_of_allowed hrun), by decide +kernel⟩

/-- A bridge without limits: the largest amounts, no limit on a message, and the largest buffer. -/
def limitless : List Event :=
  [call (.initializeBridge admin validators 2 i128Max i128Max 0),
    call (.registerWrappedAsset admin .ethereum eth weth 18),
    call (.setWithdrawalRouteLimit admin route 0 i128Max 3600), call (.updateLiquidityBuffer admin i128Max),
    lock i128Max [7] 1, lock i128Max [8] 1, lock i128Max [9] 1]

def limitlessHistory : List (World × Event) := (Reaches.visited (next host) (.deployed ⟨0, 0⟩) limitless).reverse

/-- The day and the window have more than their limits, an interval as long as a window has more than twice the
limit, a message has more than its limit of `0`, and a transfer more than a tenth of the buffer. -/
theorem limits_have_exceptions :
    ∃ w, Trace (Step host) (.deployed ⟨0, 0⟩) limitlessHistory w ∧
      (¬ ∀ config ∈ w.store.config, ∀ day,
        sumOf (·.start = day) (dayEntries host limitlessHistory) ≤ config.security.dailyTransferLimit) ∧
      (¬ ∀ part earlier, limitlessHistory = part ++ earlier → ∀ cfg,
        (∀ e ∈ part, e.1.store.settings.withdrawalRouteConfigs.lookup route = some cfg) →
        0 < cfg.aggregateWindowLimit → 0 < cfg.windowSeconds → ∀ start,
          sumOf (·.start = start) (routeEntries host route part) ≤ cfg.aggregateWindowLimit) ∧
      (¬ ∀ part earlier, limitlessHistory = part ++ earlier → ∀ cfg,
        (∀ e ∈ part, e.1.store.settings.withdrawalRouteConfigs.lookup route = some cfg) →
        0 < cfg.aggregateWindowLimit → 0 < cfg.windowSeconds → ∀ a,
          sumOf (fun e => a ≤ e.time ∧ e.time < a + cfg.windowSeconds) (routeEntries host route part) ≤
            2 * cfg.aggregateWindowLimit) ∧
      (¬ ∀ e ∈ limitlessHistory, ∀ amount, initiation host e = some (route, amount) →
        ∀ cfg ∈ e.1.store.settings.withdrawalRouteConfigs.lookup route, amount ≤ cfg.perMessageLimit) ∧
      (¬ ∀ e ∈ limitlessHistory, ∀ amount, initiation host e = some (route, amount) →
        ∀ buffer ∈ e.1.store.settings.liquidityBuffer, amount ≤ max (buffer.tdiv 10) 1) := by
  have hrun : Reaches.Along (next host) Allowed (.deployed ⟨0, 0⟩) limitless := by decide +kernel
  have hsplit : limitlessHistory = limitlessHistory.take 3 ++ limitlessHistory.drop 3 := (take_append_drop ..).symm
  have hconst : ∀ e ∈ limitlessHistory.take 3,
      e.1.store.settings.withdrawalRouteConfigs.lookup route = some ⟨0, i128Max, 3600⟩ := by decide +kernel
  refine ⟨_, Trace.of_along hrun, fun h => ?_, fun h => ?_, fun h => ?_, fun h => ?_, fun h => ?_⟩
  · have hday : ∀ config ∈ (limitless.foldl (next host) (.deployed ⟨0, 0⟩)).store.config,
        sumOf (·.start = 0) (dayEntries host limitlessHistory) ≤ config.security.dailyTransferLimit :=
      fun config hconfig => h config hconfig 0
    revert hday
    decide +kernel
  · have hwindow := h _ _ hsplit _ hconst (by decide) (by decide) 0
    revert hwindow
    decide +kernel
  · have hinterval := h _ _ hsplit _ hconst (by decide) (by decide) 0
    revert hinterval
    decide +kernel
  · have hmessage : ∀ e ∈ limitlessHistory.take 1, ∀ i ∈ initiation host e,
        ∀ cfg ∈ e.1.store.settings.withdrawalRouteConfigs.lookup route, i.1 = route → i.2 ≤ cfg.perMessageLimit := by
      rintro e he ⟨r, amount⟩ hi cfg hcfg rfl
      exact h e (mem_of_mem_take he) amount hi cfg hcfg
    revert hmessage
    decide +kernel
  · have hbuffer : ∀ e ∈ limitlessHistory.take 1, ∀ i ∈ initiation host e,
        ∀ buffer ∈ e.1.store.settings.liquidityBuffer, i.1 = route → i.2 ≤ max (buffer.tdiv 10) 1 := by
      rintro e he ⟨r, amount⟩ hi buffer hb rfl
      exact h e (mem_of_mem_take he) amount hi buffer hb
    revert hbuffer
    decide +kernel

end Sample

end CallStake.Bridge
