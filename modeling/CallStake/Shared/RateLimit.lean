import CallStake.Lib.Meter
import CallStake.Lib.Store
import CallStake.Shared.Host

/-!
# Rate limiting (`shared::rate_limiter`, `common::rate_limit`)

A fixed window per use case and subject, and on top of it the per-user limits of the contract
actions, which depend on the configured (or default) limit of the action and on the user's tier.

* `check_rate_limit` only reads; `record_action` counts one more action of a user.

A subject acts for a use case only after a successful check, with one length `W` of the window and one limit `M`.

* `Step`: time passes, a check succeeds, the subject acts, and anybody acts for another use case or subject.
* `RateRun.Counts`: the stored window counts the actions of the log, and a check that succeeded still holds good.
* `check_recordAll`: a check depends on the subject's own actions for its use case only.
* `fixed_window_bound`: the bounds, in every run.
-/

namespace CallStake.RateLimit

/-- The actions that are limited. -/
inductive ActionType where
  | signalSubmission
  | tradeExecution
  | stakeChange
  | followAction
  deriving DecidableEq

/-- How many actions a window allows. -/
structure RateLimitConfig where
  windowSecs : Nat
  maxActions : Nat

/-- How many actions the window has. -/
structure RateLimitWindow where
  windowStart : Nat
  count : Nat

/-- The entries under `RateLimiterKey` and `RateLimitKey`. -/
structure RateStorage where
  window : Store (Symbol × Address) RateLimitWindow
  config : Store ActionType RateLimitConfig
  userFirstAction : Store Address Nat

def RateStorage.empty : RateStorage := ⟨∅, ∅, ∅⟩

/-! ## The window mechanism -/

/-- `0` if the subject never acted or its last window is over. -/
def currentCount (s : RateStorage) (now : Nat) (useCase : Symbol) (subject : Address)
    (windowSecs : Nat) : Nat :=
  match s.window.lookup (useCase, subject) with
  | some w => if now - w.windowStart < windowSecs then w.count else 0
  | none => 0

def check (s : RateStorage) (now : Nat) (useCase : Symbol) (subject : Address)
    (windowSecs maxActions : Nat) : Option Nat :=
  let count := currentCount s now useCase subject windowSecs
  if maxActions ≤ count then none else some count

/-- Counts one action, in a new window if the last one is over. -/
def record (s : RateStorage) (now : Nat) (useCase : Symbol) (subject : Address)
    (windowSecs : Nat) : RateStorage :=
  let window := (s.window.lookup (useCase, subject)).getD ⟨now, 0⟩
  let window := if windowSecs ≤ now - window.windowStart then ⟨now, 0⟩ else window
  { s with
    window := s.window.insert (useCase, subject) { window with count := u32Add window.count 1 } }

/-! ## Action limits -/

def SECONDS_PER_HOUR : Nat := 3600
def SECONDS_PER_DAY : Nat := 86400
def ESTABLISHED_DAYS : Nat := 30
def ESTABLISHED_TRUST_SCORE : Nat := 60

/-- The use case of an action. -/
def actionSymbol : ActionType → Symbol
  | .signalSubmission => "sig_sub"
  | .tradeExecution => "trade"
  | .stakeChange => "stake"
  | .followAction => "follow"

def defaultConfig : ActionType → RateLimitConfig
  | .signalSubmission => ⟨SECONDS_PER_HOUR, 10⟩
  | .tradeExecution => ⟨SECONDS_PER_HOUR, 20⟩
  | .stakeChange => ⟨SECONDS_PER_DAY, 5⟩
  | .followAction => ⟨SECONDS_PER_DAY, 50⟩

def getConfig (s : RateStorage) (action : ActionType) : RateLimitConfig :=
  (s.config.lookup action).getD (defaultConfig action)

/-- When the user acted first. -/
def getFirstAction (s : RateStorage) (user : Address) : Nat := (s.userFirstAction.lookup user).getD 0

def recordFirstActionIfNew (s : RateStorage) (user : Address) (now : Nat) : RateStorage :=
  match s.userFirstAction.lookup user with
  | some _ => s
  | none => { s with userFirstAction := s.userFirstAction.insert user now }

/-- An established user with enough trust gets twice the standard limit. -/
def effectiveMax (config : RateLimitConfig) (firstAction now trustScore : Nat) : Nat :=
  if firstAction = 0 then config.maxActions
  else
    let days := (now - firstAction) / SECONDS_PER_DAY
    if ESTABLISHED_DAYS ≤ days ∧ ESTABLISHED_TRUST_SCORE ≤ trustScore then
      min (config.maxActions * 2) u32Max
    else config.maxActions

/-- `true` if `user` may perform `action` now. -/
def checkRateLimit (s : RateStorage) (now : Nat) (user : Address) (action : ActionType)
    (trustScore : Nat) : Bool :=
  let config := getConfig s action
  let max := effectiveMax config (getFirstAction s user) now trustScore
  (check s now (actionSymbol action) user config.windowSecs max).isSome

def recordAction (s : RateStorage) (now : Nat) (user : Address) (action : ActionType) :
    RateStorage :=
  let s := recordFirstActionIfNew s user now
  record s now (actionSymbol action) user (getConfig s action).windowSecs

variable {useCase useCase' : Symbol} {subject subject' : Address} {W M : Nat}

/-! ## One action -/

/-- The window in which an action counts. -/
def openWindow (s : RateStorage) (now : Nat) (useCase : Symbol) (subject : Address) (windowSecs : Nat) :
    RateLimitWindow :=
  let window := (s.window.lookup (useCase, subject)).getD ⟨now, 0⟩
  if windowSecs ≤ now - window.windowStart then ⟨now, 0⟩ else window

theorem record_lookup (s : RateStorage) (now : Nat) (useCase' : Symbol) (subject' : Address) (W : Nat) :
    (record s now useCase subject W).window.lookup (useCase', subject') =
      if (useCase', subject') = (useCase, subject) then
        some ⟨(openWindow s now useCase subject W).windowStart, u32Add (openWindow s now useCase subject W).count 1⟩
      else s.window.lookup (useCase', subject') := Store.lookup_insert_eq ..

/-- The first action, and the first one after the end of the last window. -/
theorem openWindow_new {s : RateStorage} {now : Nat}
    (h : ∀ w, s.window.lookup (useCase, subject) = some w → W ≤ now - w.windowStart) :
    openWindow s now useCase subject W = ⟨now, 0⟩ := by
  unfold openWindow
  rcases hw : s.window.lookup (useCase, subject) with _ | w
  · exact ite_self _
  · exact if_pos (h w hw)

theorem openWindow_old {s : RateStorage} {now : Nat} {w : RateLimitWindow}
    (hw : s.window.lookup (useCase, subject) = some w) (h : now - w.windowStart < W) :
    openWindow s now useCase subject W = w := by
  unfold openWindow
  rw [hw]
  exact if_neg (by simpa using h)

/-- What the stored window of a subject is, when it is not another one's action. -/
theorem record_lookup_ne {s : RateStorage} {now : Nat} (h : (useCase', subject') ≠ (useCase, subject)) :
    (record s now useCase' subject' W).window.lookup (useCase, subject) = s.window.lookup (useCase, subject) := by
  rw [record_lookup, if_neg fun heq => h heq.symm]

theorem check_isSome {s : RateStorage} {now : Nat} :
    (check s now useCase subject W M).isSome = true ↔ currentCount s now useCase subject W < M := by
  unfold check
  dsimp only
  split
  · simp
    omega
  · simp
    omega

/-- A check looks at the stored window of its subject and use case only. -/
theorem check_congr {s s' : RateStorage} (h : s'.window.lookup (useCase, subject) = s.window.lookup (useCase, subject))
    (now : Nat) : check s' now useCase subject W M = check s now useCase subject W M := by
  unfold check currentCount
  rw [h]

/-! ## Other actions -/

/-- An action that was recorded after a check. -/
structure Action where
  time : Nat
  useCase : Symbol
  subject : Address
  windowSecs : Nat

/-- Actions in a row. -/
def recordAll (s : RateStorage) (actions : List Action) : RateStorage :=
  actions.foldl (fun s a => record s a.time a.useCase a.subject a.windowSecs) s

theorem record_lookup_congr {s s' : RateStorage}
    (h : s'.window.lookup (useCase, subject) = s.window.lookup (useCase, subject)) (now : Nat) (W : Nat) :
    (record s' now useCase subject W).window.lookup (useCase, subject) =
      (record s now useCase subject W).window.lookup (useCase, subject) := by
  rw [record_lookup, record_lookup, if_pos rfl, if_pos rfl]
  unfold openWindow
  rw [h]

theorem recordAll_lookup (actions : List Action) {s s' : RateStorage}
    (h : s'.window.lookup (useCase, subject) = s.window.lookup (useCase, subject)) :
    (recordAll s' (actions.filter fun a => a.useCase = useCase ∧ a.subject = subject)).window.lookup
        (useCase, subject) = (recordAll s actions).window.lookup (useCase, subject) := by
  induction actions generalizing s s' with
  | nil => exact h
  | cons a actions ih =>
    by_cases ha : a.useCase = useCase ∧ a.subject = subject
    · rw [List.filter_cons_of_pos (by simpa using ha)]
      obtain ⟨rfl, rfl⟩ := ha
      exact ih (record_lookup_congr h a.time a.windowSecs)
    · rw [List.filter_cons_of_neg (by simpa using ha)]
      refine ih (h.trans (record_lookup_ne ?_).symm)
      rintro heq
      exact ha (Prod.mk.inj heq)

/-- The actions of others do not change what a check says. -/
theorem check_recordAll (s : RateStorage) (actions : List Action) (now : Nat) :
    check (recordAll s actions) now useCase subject W M =
      check (recordAll s (actions.filter fun a => a.useCase = useCase ∧ a.subject = subject)) now useCase
        subject W M :=
  (check_congr (recordAll_lookup actions rfl) now).symm

/-! ## Runs -/

/-- The storage, with the times of the subject's actions, the last one first. -/
structure RateRun where
  storage : RateStorage
  now : Nat
  /-- Whether a check of the subject has succeeded since its last action. -/
  cleared : Bool
  log : List Nat

def RateRun.start (s : RateStorage) (now : Nat) : RateRun := ⟨s, now, false, []⟩

/-- Waiting, a check, the action it guards, or another use of the limiter. -/
inductive Event where
  | wait (now : Nat)
  | check
  | act
  | other (useCase : Symbol) (subject : Address) (windowSecs : Nat)

/-- The step relation of the runs. -/
inductive Step (useCase : Symbol) (subject : Address) (W M : Nat) : RateRun → Event → RateRun → Prop where
  | wait {r : RateRun} {now : Nat} (h : r.now ≤ now) : Step useCase subject W M r (.wait now) { r with now }
  | check {r : RateRun} (h : (check r.storage r.now useCase subject W M).isSome = true) :
    Step useCase subject W M r .check { r with cleared := true }
  | act {r : RateRun} (h : r.cleared = true) :
    Step useCase subject W M r .act
      { r with storage := record r.storage r.now useCase subject W, cleared := false, log := r.now :: r.log }
  | other {r : RateRun} {useCase' : Symbol} {subject' : Address} {W' : Nat}
    (h : (useCase', subject') ≠ (useCase, subject)) :
    Step useCase subject W M r (.other useCase' subject' W')
      { r with storage := record r.storage r.now useCase' subject' W' }

/-- The window that is stored for the subject. -/
def RateRun.stored (r : RateRun) (useCase : Symbol) (subject : Address) : Option RateLimitWindow :=
  r.storage.window.lookup (useCase, subject)

/-- Without a stored window the subject has not acted. -/
structure RateRun.Counts (useCase : Symbol) (subject : Address) (W M : Nat) (r : RateRun) : Prop where
  unopened (h : r.stored useCase subject = none) : r.log = []
  opened (w : RateLimitWindow) (h : r.stored useCase subject = some w) :
    w.windowStart ≤ r.now ∧ FixedWindow W M r.log w.windowStart w.count
  cleared (h : r.cleared = true) : 1 ≤ M ∧
    ∀ w, r.stored useCase subject = some w → r.now < w.windowStart + W → w.count < M

section Run

variable {r r' : RateRun} {e : Event}

theorem RateRun.Counts.start {s : RateStorage} (h : s.window.lookup (useCase, subject) = none) (now : Nat) :
    (RateRun.start s now).Counts useCase subject W M where
  unopened _ := rfl
  opened w hw := by
    rw [RateRun.stored, RateRun.start, h] at hw
    cases hw
  cleared hc := by cases hc

/-- The window that is stored after an action, and how it comes from the one before. -/
theorem RateRun.Counts.stored_act (h : r.Counts useCase subject W M) (hW : 0 < W) (hM : M ≤ u32Max)
    (hc : r.cleared = true) :
    ∃ w, (record r.storage r.now useCase subject W).window.lookup (useCase, subject) = some w ∧
      w.windowStart ≤ r.now ∧ FixedWindow W M (r.now :: r.log) w.windowStart w.count ∧
      ∀ v, r.stored useCase subject = some v → w.windowStart = v.windowStart ∨
        v.windowStart + W ≤ r.now ∧ w.windowStart = r.now := by
  obtain ⟨h1, hroom⟩ := h.cleared hc
  refine ⟨_, (record_lookup ..).trans (if_pos rfl), ?_⟩
  rcases hw : r.stored useCase subject with _ | w
  · have hnew : openWindow r.storage r.now useCase subject W = ⟨r.now, 0⟩ :=
      openWindow_new fun w h => by cases hw.symm.trans h
    rw [hnew, h.unopened hw]
    exact ⟨Nat.le_refl _, .first h1 hW r.now, by rintro v ⟨⟩⟩
  · obtain ⟨hle, hfix⟩ := h.opened w hw
    by_cases hover : W ≤ r.now - w.windowStart
    · have hnew : openWindow r.storage r.now useCase subject W = ⟨r.now, 0⟩ :=
        openWindow_new fun v h => by cases hw.symm.trans h; exact hover
      rw [hnew]
      refine ⟨Nat.le_refl _, hfix.roll hW h1 (by omega), ?_⟩
      rintro v ⟨⟩
      exact .inr ⟨by omega, rfl⟩
    · have hlt : w.count < M := hroom w hw (by omega)
      have hcount : u32Add w.count 1 = w.count + 1 := Nat.min_eq_left (by omega)
      rw [openWindow_old hw (by omega), hcount]
      refine ⟨hle, hfix.act hle (by omega) hlt, ?_⟩
      rintro v ⟨⟩
      exact .inl rfl

theorem RateRun.Counts.step (h : r.Counts useCase subject W M) (hW : 0 < W) (hM : M ≤ u32Max)
    (hs : Step useCase subject W M r e r') : r'.Counts useCase subject W M := by
  cases hs with
  | @wait now hle =>
    refine ⟨h.unopened, fun w hw => ?_, fun hc => ?_⟩
    · exact ⟨(h.opened w hw).1.trans hle, (h.opened w hw).2⟩
    · exact ⟨(h.cleared hc).1, fun w hw hlt => (h.cleared hc).2 w hw (Nat.lt_of_le_of_lt hle hlt)⟩
  | check hsome =>
    refine ⟨h.unopened, h.opened, fun _ => ?_⟩
    have hlt := check_isSome.mp hsome
    refine ⟨by omega, fun w hw hopen => ?_⟩
    have hle := (h.opened w hw).1
    have hcount : currentCount r.storage r.now useCase subject W = w.count := by
      change r.storage.window.lookup (useCase, subject) = some w at hw
      unfold currentCount
      rw [hw]
      change r.now < w.windowStart + W at hopen
      exact if_pos (by omega)
    omega
  | act hc =>
    obtain ⟨w, hw, hle, hfix, -⟩ := h.stored_act hW hM hc
    refine ⟨fun hnone => ?_, fun v hv => ?_, by rintro ⟨⟩⟩
    · rw [RateRun.stored, hw] at hnone
      cases hnone
    · rw [RateRun.stored, hw] at hv
      cases hv
      exact ⟨hle, hfix⟩
  | @other useCase' subject' W' hne =>
    have hsame : (record r.storage r.now useCase' subject' W').window.lookup (useCase, subject) =
        r.storage.window.lookup (useCase, subject) := record_lookup_ne hne
    refine ⟨fun hnone => ?_, fun w hw => ?_, fun hc => ⟨(h.cleared hc).1, fun w hw => ?_⟩⟩
    · exact h.unopened (hsame.symm.trans hnone)
    · exact h.opened w (hsame.symm.trans hw)
    · exact (h.cleared hc).2 w (hsame.symm.trans hw)

/-- What is known of a window that was stored at some time. -/
def RateRun.Past (useCase : Symbol) (subject : Address) (W M a : Nat) (r : RateRun) : Prop :=
  ∃ w, r.stored useCase subject = some w ∧ Filled W M a r.log w.windowStart

theorem RateRun.Past.step {a : Nat} (h : r.Past useCase subject W M a) (hr : r.Counts useCase subject W M)
    (hW : 0 < W) (hM : M ≤ u32Max) (hs : Step useCase subject W M r e r') : r'.Past useCase subject W M a := by
  obtain ⟨v, hv, hfilled⟩ := h
  cases hs with
  | wait => exact ⟨v, hv, hfilled⟩
  | check => exact ⟨v, hv, hfilled⟩
  | act hc =>
    obtain ⟨w, hw, hle, hfix, hcome⟩ := hr.stored_act hW hM hc
    refine ⟨w, hw, ?_⟩
    rcases hcome v hv with heq | ⟨hover, hnow⟩
    · rw [heq] at hfix hle ⊢
      exact hfilled.act hfix hle
    · rw [hnow]
      exact hfilled.roll hover
  | other hne => exact ⟨v, (record_lookup_ne hne).trans hv, hfilled⟩

theorem counts_of_reaches (hW : 0 < W) (hM : M ≤ u32Max) (h : r.Counts useCase subject W M)
    (hrun : Reaches (Step useCase subject W M) r r') : r'.Counts useCase subject W M :=
  hrun.invariant h fun _ _ _ hc hs => hc.step hW hM hs

/-- A window that was stored has at most `M` actions ever after. -/
theorem past_of_reaches (hW : 0 < W) (hM : M ≤ u32Max) (h : r.Counts useCase subject W M) {w : RateLimitWindow}
    (hw : r.stored useCase subject = some w) (hrun : Reaches (Step useCase subject W M) r r') :
    countIn r'.log w.windowStart (w.windowStart + W) ≤ M := by
  have hpast : r.Past useCase subject W M w.windowStart := ⟨w, hw, (h.opened w hw).2.filled⟩
  obtain ⟨-, v, -, hfilled⟩ := hrun.invariant (I := fun r => r.Counts useCase subject W M ∧
    r.Past useCase subject W M w.windowStart) ⟨h, hpast⟩
    fun _ _ _ hI hs => ⟨hI.1.step hW hM hs, hI.2.step hI.1 hW hM hs⟩
  exact hfilled.capped

theorem RateRun.Counts.spread (h : r.Counts useCase subject W M) (t : Nat) :
    countIn r.log t (t + W + 1) ≤ 2 * M := by
  rcases hw : r.stored useCase subject with _ | w
  · rw [h.unopened hw, countIn_nil]
    exact Nat.zero_le _
  · exact (h.opened w hw).2.spread t

end Run

/-- In every run at most `2 * M` actions are in an interval of length `W`, both ends included; at most `M` in a
window that is or was stored; and the actions of others do not change what a check says. -/
theorem fixed_window_bound (hW : 0 < W) (hM : M ≤ u32Max) {s : RateStorage} {now : Nat} {r : RateRun}
    (hnew : s.window.lookup (useCase, subject) = none)
    (hrun : Reaches (Step useCase subject W M) (RateRun.start s now) r) :
    (∀ t, countIn r.log t (t + W + 1) ≤ 2 * M) ∧
    (∀ w, r.storage.window.lookup (useCase, subject) = some w →
      countIn r.log w.windowStart (w.windowStart + W) = w.count ∧ w.count ≤ M ∧
      ∀ r', Reaches (Step useCase subject W M) r r' → countIn r'.log w.windowStart (w.windowStart + W) ≤ M) ∧
    ∀ (actions : List Action) (now : Nat), check (recordAll r.storage actions) now useCase subject W M =
      check (recordAll r.storage (actions.filter fun a => a.useCase = useCase ∧ a.subject = subject)) now useCase
        subject W M := by
  have hcounts := counts_of_reaches hW hM (.start hnew now) hrun
  refine ⟨hcounts.spread, fun w hw => ?_, check_recordAll r.storage⟩
  have hfix := (hcounts.opened w hw).2
  exact ⟨hfix.counted, hfix.capped, fun r' hrun' => past_of_reaches hW hM hcounts hw hrun'⟩

namespace Sample

/-- One action in ten seconds, at the start of one window and of the next. -/
def acted : RateRun := ⟨record (record .empty 5 "trade" ⟨1⟩ 10) 15 "trade" ⟨1⟩ 10, 15, false, [15, 5]⟩

theorem reaches_acted : Reaches (Step "trade" ⟨1⟩ 10 1) (RateRun.start .empty 5) acted :=
  ((((Reaches.refl _).tail (.check (by decide +kernel))).tail (.act rfl)).tail (.wait (by decide)) |>.tail
    (.check (by decide +kernel))).tail (.act rfl)

/-- The bound is reached: an interval of the length of the window has two actions. -/
theorem window_bound_reached :
    countIn acted.log 5 (5 + 10 + 1) = 2 * 1 ∧ countIn acted.log 5 (5 + 10 + 1) ≤ 2 * 1 :=
  ⟨by decide, (fixed_window_bound (by decide) (by decide) rfl reaches_acted).1 5⟩

end Sample

end CallStake.RateLimit
