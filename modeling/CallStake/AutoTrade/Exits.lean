import CallStake.AutoTrade.ExitStrategy
import CallStake.Lib.Outcome

/-!
# The lifecycle of exit strategies

What is sold of a position, what is left of it, and that nothing happens to a strategy that has ended.

* `sizeSince`, `soldSince`, `soldBy`, `prices`: what the history of a strategy says.
* `Sound`: the strategy agrees with its history. `Frozen`: strategies that have ended stay as they are.
* `Swept`: what the take-profit tiers sell in one check, tier by tier.
* `Fits`: no tier of a check takes more than is left. `Regular`: the steps that keep strategies sound; a share must
  fit, and a strategy that has ended must not be adjusted. `exits_sound`: runs of such steps.
-/

namespace CallStake.ExitStrategies

open Tx List

/-! ## The property -/

/-- The size at the last adjustment, or at the creation. -/
def sizeSince : List Happening → Int
  | [] => 0
  | .created _ size :: _ | .adjusted size :: _ => size
  | .observed _ :: h | .sold .. :: h => sizeSince h

/-- What was sold since then. -/
def soldSince : List Happening → Int
  | [] | .created .. :: _ | .adjusted _ :: _ => 0
  | .observed _ :: h => soldSince h
  | .sold _ _ amount :: h => amount + soldSince h

def Happening.isSaleOf (i : Nat) : Happening → Bool
  | .sold (some j) _ _ => i == j
  | .sold none _ _ | .created .. | .observed _ | .adjusted _ => false

/-- How often a take-profit tier has sold. -/
def soldBy (i : Nat) (h : List Happening) : Nat := h.countP (·.isSaleOf i)

/-- The entry price, and the prices observed since. -/
def prices : List Happening → List Int
  | [] => []
  | .created entryPrice _ :: h => entryPrice :: prices h
  | .observed price :: h => price :: prices h
  | .sold .. :: h | .adjusted _ :: h => prices h

/-- A sale is positive, and at most what is held. -/
def Happening.Fair : Happening → Prop
  | .sold _ held amount => 0 < amount ∧ amount ≤ held
  | .created .. | .observed _ | .adjusted _ => True

/-- A strategy agrees with its history. -/
structure Sound (s : ExitStrategy) (h : List Happening) : Prop where
  size : 0 ≤ s.currentPositionSize
  fair : ∀ e ∈ h, e.Fair
  balance : sizeSince h = soldSince h + s.currentPositionSize
  once : ∀ i, soldBy i h ≤ 1
  peak : s.highestPrice ∈ prices h ∧ ∀ p ∈ prices h, p ≤ s.highestPrice
  ended : s.status ≠ .active → s.currentPositionSize = 0

/-- The sales of a strategy. -/
def sales (h : List Happening) : List Happening := h.filter fun
  | .sold .. => true
  | .created .. | .observed _ | .adjusted _ => false

/-- Strategies that have ended keep their status, hold nothing and sell nothing. -/
def Frozen (w w' : World) : Prop := ∀ id s, w.store.strategies.lookup id = some s → s.status ≠ .active →
  ∃ s', w'.store.strategies.lookup id = some s' ∧ s'.status = s.status ∧ s'.currentPositionSize = 0 ∧
    sales (w'.history id) = sales (w.history id)

/-- What a due tier takes. -/
def TakeProfitTier.share (tp : TakeProfitTier) (size : Int) : Int := max ((size * tp.positionPct).tdiv 10000) 1

/-- No due tier takes more than the tiers before it leave. -/
def Fits (price : Int) : Int → List TakeProfitTier → Prop
  | _, [] => True
  | size, tp :: tps =>
    if tp.Due price size then tp.share size ≤ size ∧ Fits price (size - tp.share size) tps else Fits price size tps

instance decidableFits (price : Int) : (size : Int) → (tps : List TakeProfitTier) → Decidable (Fits price size tps)
  | _, [] => inferInstanceAs (Decidable True)
  | size, tp :: tps =>
    have := decidableFits price (size - tp.share size) tps
    have := decidableFits price size tps
    inferInstanceAs (Decidable (if tp.Due price size then _ else _))

/-- At a check, the shares fit. An adjustment meets an active strategy, or leaves nothing of a complete one. -/
def Regular (w : World) : Event → Prop
  | .call _ (.checkAndExecuteExits id price) => ∀ s ∈ w.store.strategies.lookup id, s.status = .active →
    Fits price s.currentPositionSize s.takeProfitTiers
  | .call auth (.adjustExitPosition user id newSize) => ∀ s ∈ w.store.strategies.lookup id,
    auth user = true → s.user = user → 0 ≤ newSize → s.status = .active ∨ s.status = .complete ∧ newSize = 0
  | .call _ (.createExitStrategy ..) | .call _ (.exitStrategyConservative ..)
  | .call _ (.createExitStrategyBalanced ..) | .call _ (.createExitStrategyAggressive ..) | .advance _ => True

instance (w : World) : (ev : Event) → Decidable (Regular w ev)
  | .call _ (.checkAndExecuteExits ..) | .call _ (.adjustExitPosition ..) =>
    inferInstanceAs (Decidable (∀ _ ∈ _, _))
  | .call _ (.createExitStrategy ..) | .call _ (.exitStrategyConservative ..)
  | .call _ (.createExitStrategyBalanced ..) | .call _ (.createExitStrategyAggressive ..) | .advance _ =>
    inferInstanceAs (Decidable True)

/-! ## The take-profit tiers -/

/-- The tiers from number `i` on meet a price and a size: the size and the tiers after them, and the sales, the last
one first. -/
inductive Swept (price : Int) : Nat → Int → List TakeProfitTier → Int → List TakeProfitTier → List Happening → Prop
  | done (i : Nat) (size : Int) : Swept price i size [] size [] []
  | skipped {i : Nat} {size left : Int} {tp : TakeProfitTier} {tps tps' : List TakeProfitTier} {h : List Happening}
    (hdue : ¬ tp.Due price size) (hrest : Swept price (i + 1) size tps left tps' h) :
    Swept price i size (tp :: tps) left (tp :: tps') h
  | sold {i : Nat} {size left : Int} {tp : TakeProfitTier} {tps tps' : List TakeProfitTier} {h : List Happening}
    (hdue : tp.Due price size) (hrest : Swept price (i + 1) (size - tp.share size) tps left tps' h) :
    Swept price i size (tp :: tps) left ({ tp with executed := true } :: tps')
      (h ++ [.sold (some i) size (tp.share size)])

def executedAt (tps : List TakeProfitTier) (i : Nat) : Bool := tps[i]?.elim false (·.executed)

namespace Swept

variable {price size left : Int} {i : Nat} {tps tps' : List TakeProfitTier} {h : List Happening}

theorem size_eq (hs : Swept price i size tps left tps' h) (before : List Happening) :
    sizeSince (h ++ before) = sizeSince before ∧ soldSince (h ++ before) = soldSince before + (size - left) := by
  induction hs generalizing before with
  | done => exact ⟨rfl, by simp⟩
  | skipped _ _ ih => exact ih before
  | sold _ _ ih =>
    rw [append_assoc]
    obtain ⟨hsize, hsold⟩ := ih ([.sold (some _) _ _] ++ before)
    refine ⟨hsize, hsold.trans ?_⟩
    rw [singleton_append, soldSince]
    omega

theorem prices_eq (hs : Swept price i size tps left tps' h) (before : List Happening) :
    prices (h ++ before) = prices before := by
  induction hs generalizing before with
  | done => rfl
  | skipped _ _ ih => exact ih before
  | sold _ _ ih => rw [append_assoc, ih]; rfl

/-- Where the shares fit, something is left, or nothing, and the sales are fair. -/
theorem fair (hs : Swept price i size tps left tps' h) (hsize : 0 ≤ size) (hfits : Fits price size tps) :
    0 ≤ left ∧ ∀ e ∈ h, e.Fair := by
  induction hs with
  | done => exact ⟨hsize, fun _ he => absurd he not_mem_nil⟩
  | skipped hdue _ ih =>
    rw [Fits, if_neg hdue] at hfits
    exact ih hsize hfits
  | sold hdue _ ih =>
    rw [Fits, if_pos hdue] at hfits
    obtain ⟨hle, hrest⟩ := hfits
    obtain ⟨hleft, hfair⟩ := ih (by omega) hrest
    refine ⟨hleft, fun e he => ?_⟩
    rcases List.mem_append.mp he with he | he
    · exact hfair e he
    · rw [List.mem_singleton.mp he]
      exact ⟨by unfold TakeProfitTier.share; omega, hle⟩

/-- A tier sells when it becomes executed, and only then. -/
theorem soldBy_eq (hs : Swept price i size tps left tps' h) :
    (∀ j, soldBy (i + j) h + (executedAt tps j).toNat = (executedAt tps' j).toNat) ∧ ∀ j < i, soldBy j h = 0 := by
  induction hs with
  | done => exact ⟨fun _ => Nat.zero_add _, fun _ _ => rfl⟩
  | @skipped i _ _ tp _ _ h _ _ ih =>
    refine ⟨fun j => ?_, fun j hj => ih.2 j (by omega)⟩
    cases j with
    | zero =>
      have h0 : soldBy i h = 0 := ih.2 i (by omega)
      change soldBy i h + (executedAt (tp :: _) 0).toNat = _
      rw [h0, Nat.zero_add]
      rfl
    | succ j =>
      have hj := ih.1 j
      rw [Nat.add_right_comm] at hj
      exact hj
  | @sold i size _ tp _ _ h hdue _ ih =>
    have hsplit : ∀ j, soldBy j (h ++ [.sold (some i) size (tp.share size)]) =
        soldBy j h + if j = i then 1 else 0 := by
      intro j
      unfold soldBy
      rw [countP_append, countP_singleton]
      simp [Happening.isSaleOf]
    refine ⟨fun j => ?_, fun j hj => ?_⟩
    · rw [hsplit]
      cases j with
      | zero =>
        have h0 : soldBy i h = 0 := ih.2 i (by omega)
        rw [Nat.add_zero, if_pos rfl, h0]
        change 0 + 1 + tp.executed.toNat = _
        rw [hdue.1]
        rfl
      | succ j =>
        rw [if_neg (by omega), Nat.add_zero]
        have hj := ih.1 j
        rw [Nat.add_right_comm] at hj
        exact hj
    · rw [hsplit, if_neg (by omega), ih.2 j (by omega)]

end Swept

/-! ## What a check does -/

section Check

variable {w w' : World} {id : Nat} {price : Int}

theorem note_note (w : World) (id : Nat) (h h' : List Happening) :
    (w.note id h).note id h' = w.note id (h' ++ h) := by
  unfold World.note
  simp [Function.update_self, Function.update_idem]

theorem note_nil (w : World) (id : Nat) : w.note id [] = w := by
  unfold World.note
  simp

@[simp] theorem bind_plain_ok {α : Type} {x : Int} {a : α} {k : Int → X α} :
    (plain x >>= k) w = (.ok a, w') ↔ InRange x ∧ k x w = (.ok a, w') := bind_checked_ok

theorem executeSell_ok {signalId : Nat} {amount price : Int} {n : Nat}
    (hr : executeSell signalId amount price w = (.ok n, w')) : w' = w := by
  rw [executeSell, bind_gets_ok] at hr
  exact (pure_ok.mp hr).2.symm

theorem takeProfit_ok {signalId i : Nat} {size : Int} {tp : TakeProfitTier}
    {r : Int × TakeProfitTier × List Nat} (hr : takeProfit id signalId price i size tp w = (.ok r, w')) :
    (¬ tp.Due price size ∧ r.1 = size ∧ r.2.1 = tp ∧ w' = w) ∨
    (tp.Due price size ∧ r.1 = size - tp.share size ∧ r.2.1 = { tp with executed := true } ∧
      w' = w.note id [.sold (some i) size (tp.share size)]) := by
  unfold takeProfit at hr
  split at hr
  · rename_i hdue
    obtain ⟨-, hr⟩ := bind_plain_ok.mp hr
    obtain ⟨n, w₁, hsell, hr⟩ := bind_ok.mp hr
    rw [executeSell_ok hsell] at hr
    obtain ⟨-, hr⟩ := bind_plain_ok.mp hr
    rw [note, bind_modify_ok] at hr
    obtain ⟨rfl, rfl⟩ := pure_ok.mp hr
    exact .inr ⟨hdue, rfl, rfl, rfl⟩
  · rename_i hdue
    obtain ⟨rfl, rfl⟩ := pure_ok.mp hr
    exact .inl ⟨hdue, rfl, rfl, rfl⟩

theorem takeProfits_ok {signalId : Nat} {tps : List TakeProfitTier} {i : Nat} {size : Int}
    {r : Int × List TakeProfitTier × List Nat} (hr : takeProfits id signalId price i size tps w = (.ok r, w')) :
    ∃ h, Swept price i size tps r.1 r.2.1 h ∧ w' = w.note id h := by
  induction tps generalizing w w' i size r with
  | nil =>
    obtain ⟨rfl, rfl⟩ := pure_ok.mp hr
    exact ⟨[], .done i size, (note_nil w id).symm⟩
  | cons tp tps ih =>
    rw [takeProfits] at hr
    obtain ⟨sold, w₁, hsold, hr⟩ := bind_ok.mp hr
    obtain ⟨rest, w₂, hrest, hr⟩ := bind_ok.mp hr
    obtain ⟨rfl, rfl⟩ := pure_ok.mp hr
    obtain ⟨h, hswept, rfl⟩ := ih hrest
    rcases takeProfit_ok hsold with ⟨hdue, hsize, htp, rfl⟩ | ⟨hdue, hsize, htp, rfl⟩
    · rw [hsize] at hswept
      rw [htp]
      exact ⟨h, .skipped hdue hswept, rfl⟩
    · rw [hsize] at hswept
      rw [htp]
      exact ⟨_, .sold hdue hswept, note_note ..⟩

/-- How the trailing stops of a check end: they hold, or everything is sold. -/
inductive Trailed (s : ExitStrategy) : ExitStrategy → List Happening → Prop
  | held (tiers : List StopLossTier) : Trailed s { s with stopLossTiers := tiers } []
  | stopped (tiers : List StopLossTier) (hsize : 0 < s.currentPositionSize) :
    Trailed s { s with stopLossTiers := tiers, currentPositionSize := 0, status := .stopHit }
      [.sold none s.currentPositionSize s.currentPositionSize]

theorem trailingStops_ok {s : ExitStrategy} {r : ExitStrategy × List Nat}
    (hr : trailingStops id price s w = (.ok r, w')) : ∃ h, Trailed s r.1 h ∧ w' = w.note id h := by
  unfold trailingStops at hr
  split at hr
  case isFalse =>
    obtain ⟨rfl, rfl⟩ := pure_ok.mp hr
    exact ⟨[], .held s.stopLossTiers, (note_nil w id).symm⟩
  obtain ⟨profitPct, w₁, hpct, hrun⟩ := bind_ok.mp hr
  have hw : w₁ = w := by
    unfold currentProfitPct at hpct
    split at hpct
    · obtain ⟨-, hpct⟩ := bind_plain_ok.mp hpct
      obtain ⟨-, hpct⟩ := bind_plain_ok.mp hpct
      exact (pure_ok.mp hpct).2.symm
    · exact (pure_ok.mp hpct).2.symm
  subst hw
  generalize tightestTrail (activate profitPct s.stopLossTiers) = tightest at hrun
  cases tightest with
  | none =>
    obtain ⟨rfl, rfl⟩ := pure_ok.mp hrun
    exact ⟨[], .held _, (note_nil w₁ id).symm⟩
  | some trailPct =>
    rw [trail, calculateTrailingStop, bind_assoc_eq] at hrun
    obtain ⟨-, hrun⟩ := bind_plain_ok.mp hrun
    rw [pure_bind_eq] at hrun
    split at hrun
    · rename_i hbelow
      obtain ⟨n, w₂, hsell, hrun⟩ := bind_ok.mp hrun
      rw [executeSell_ok hsell] at hrun
      rw [note, bind_modify_ok] at hrun
      obtain ⟨rfl, rfl⟩ := pure_ok.mp hrun
      exact ⟨_, .stopped _ hbelow.2, rfl⟩
    · obtain ⟨rfl, rfl⟩ := pure_ok.mp hrun
      exact ⟨[], .held _, (note_nil w₁ id).symm⟩

/-- A strategy is stored under its id. -/
def World.withStrategy (w : World) (id : Nat) (s : ExitStrategy) : World :=
  { w with store := { w.store with strategies := w.store.strategies.insert id s } }

/-- A strategy whose highest price includes one more price. -/
def ExitStrategy.raised (s : ExitStrategy) (price : Int) : ExitStrategy :=
  { s with highestPrice := if s.highestPrice < price then price else s.highestPrice }

/-- A check returned: the strategy had ended, or its tiers and then its stops met the price. -/
theorem checkAndExecuteExits_ok {trades : List Nat} (hr : checkAndExecuteExits id price w = (.ok trades, w')) :
    ∃ s, w.store.strategies.lookup id = some s ∧ (s.status ≠ .active ∧ w' = w ∨
      s.status = .active ∧ ∃ left tps h s' h', Swept price 0 s.currentPositionSize s.takeProfitTiers left tps h ∧
        Trailed { s.raised price with currentPositionSize := left, takeProfitTiers := tps } s' h' ∧
        w' = (w.note id (h' ++ h)).withStrategy id s'.marked) := by
  rw [checkAndExecuteExits, load, bind_assoc_eq, bind_gets_ok] at hr
  obtain ⟨s, hs, hr⟩ := bind_ofOption_ok.mp hr
  refine ⟨s, hs, ?_⟩
  split at hr
  case isFalse hended => exact .inl ⟨hended, (pure_ok.mp hr).2.symm⟩
  rename_i hactive
  rw [executeExits] at hr
  obtain ⟨sold, w₁, hsold, hr⟩ := bind_ok.mp hr
  obtain ⟨stopped, w₂, hstopped, hr⟩ := bind_ok.mp hr
  rw [save, bind_modify_ok] at hr
  obtain ⟨-, rfl⟩ := pure_ok.mp hr
  obtain ⟨h, hswept, rfl⟩ := takeProfits_ok hsold
  obtain ⟨h', htrailed, rfl⟩ := trailingStops_ok hstopped
  refine .inr ⟨hactive, _, _, h, _, h', hswept, htrailed, ?_⟩
  rw [note_note]
  rfl

/-- The price is entered before what the check sells. -/
theorem observe_check_ok {u : Unit}
    (hr : (observe id price >>= fun _ => void (checkAndExecuteExits id price)) w = (.ok u, w')) :
    w' = w ∨ ∃ s, w.store.strategies.lookup id = some s ∧ s.status = .active ∧ ∃ left tps h s' h',
      Swept price 0 s.currentPositionSize s.takeProfitTiers left tps h ∧
      Trailed { s.raised price with currentPositionSize := left, takeProfitTiers := tps } s' h' ∧
      w' = (w.note id (h' ++ (h ++ [.observed price]))).withStrategy id s'.marked := by
  rw [observe, bind_assoc_eq, bind_gets_ok] at hr
  obtain ⟨_, w₁, hobserve, hr⟩ := bind_ok.mp hr
  obtain ⟨trades, hr⟩ := void_ok.mp hr
  obtain ⟨s, hs, hcheck⟩ := checkAndExecuteExits_ok hr
  rw [when_ok] at hobserve
  split at hobserve
  · rename_i hactive
    obtain ⟨t, ht, htactive⟩ := hactive
    obtain rfl := modify_ok.mp hobserve
    cases hs.symm.trans ht
    obtain ⟨hended, -⟩ | ⟨-, left, tps, h, s', h', hswept, htrailed, rfl⟩ := hcheck
    · exact absurd htactive hended
    · refine .inr ⟨s, hs, htactive, left, tps, h, s', h', hswept, htrailed, ?_⟩
      rw [note_note, append_assoc]
  · rename_i hended
    subst hobserve
    obtain ⟨-, rfl⟩ | ⟨hactive, -⟩ := hcheck
    · exact .inl rfl
    · exact absurd ⟨s, hs, hactive⟩ hended

/-- A new strategy, under the next id. -/
def World.created (w : World) (s : ExitStrategy) : World :=
  { (w.note w.store.nextId [.created s.entryPrice s.currentPositionSize]) with
    store := ⟨w.store.nextId + 1, w.store.strategies.insert w.store.nextId s,
      w.store.userStrategies.insert s.user ((w.store.userStrategies.lookup s.user).getD [] ++ [w.store.nextId])⟩ }

theorem createExitStrategy_ok {user : Address} {signalId n : Nat} {entryPrice size : Int}
    {tps : List TakeProfitTier} {sls : List StopLossTier}
    (hr : createExitStrategy user signalId entryPrice size tps sls w = (.ok n, w')) :
    0 < size ∧ w'.note n [.created entryPrice size] =
      w.created ⟨user, signalId, entryPrice, size, tps, sls, entryPrice, .active⟩ := by
  obtain ⟨hamount, hr⟩ := bind_failIf_ok.mp hr
  obtain ⟨-, hr⟩ := bind_failIf_ok.mp hr
  rw [nextId, bind_assoc_eq, bind_gets_ok, bind_assoc_eq] at hr
  obtain ⟨-, hr⟩ := bind_failIf_ok.mp hr
  rw [bind_assoc_eq, bind_modify_ok, pure_bind_eq, save, bind_modify_ok, addUserStrategy, bind_modify_ok] at hr
  obtain ⟨rfl, rfl⟩ := pure_ok.mp hr
  exact ⟨by omega, rfl⟩

theorem adjustPositionSize_ok {user : Address} {newSize : Int} {u : Unit}
    (hr : adjustPositionSize user id newSize w = (.ok u, w')) :
    ∃ s, w.store.strategies.lookup id = some s ∧ s.user = user ∧ 0 ≤ newSize ∧
      w' = w.withStrategy id { s with
        currentPositionSize := newSize
        status := if newSize = 0 then .complete else s.status } := by
  rw [adjustPositionSize, load, bind_assoc_eq, bind_gets_ok] at hr
  obtain ⟨s, hs, hr⟩ := bind_ofOption_ok.mp hr
  obtain ⟨huser, hr⟩ := bind_failIf_ok.mp hr
  obtain ⟨hsize, hr⟩ := bind_failIf_ok.mp hr
  rw [save, modify_ok] at hr
  exact ⟨s, hs, not_not.mp huser, by omega, hr.symm⟩

theorem preset_ok {targets : List (Int × Nat)} {sls : List StopLossTier} {user : Address} {signalId n : Nat}
    {entryPrice size : Int} (hr : preset targets sls user signalId entryPrice size w = (.ok n, w')) :
    ∃ tps, 0 < size ∧ w'.note n [.created entryPrice size] =
      w.created ⟨user, signalId, entryPrice, size, tps, sls, entryPrice, .active⟩ := by
  have htiers : ∀ targets tps w₁, presetTiers entryPrice targets w = (.ok tps, w₁) → w₁ = w := by
    intro targets
    induction targets with
    | nil => exact fun tps w₁ h => (pure_ok.mp h).2.symm
    | cons target targets ih =>
      intro tps w₁ h
      obtain ⟨-, h⟩ := bind_plain_ok.mp h
      obtain ⟨tps', w₂, h1, h⟩ := bind_ok.mp h
      rw [← ih tps' w₂ h1]
      exact (pure_ok.mp h).2.symm
  obtain ⟨tps, w₁, h1, h⟩ := bind_ok.mp hr
  rw [htiers _ _ _ h1] at h
  exact ⟨tps, createExitStrategy_ok h⟩

/-- What an event does. -/
inductive Move (w : World) : Event → World → Prop
  | stay (ev : Event) (ledger : Ledger) : Move w ev { w with ledger }
  | created (ev : Event) (s : ExitStrategy) (hsize : 0 < s.currentPositionSize) (hactive : s.status = .active)
    (hpeak : s.highestPrice = s.entryPrice) : Move w ev (w.created s)
  | checked (auth : Auth) (id : Nat) (price : Int) {s s' : ExitStrategy} {left : Int} {tps : List TakeProfitTier}
    {h h' : List Happening} (hs : w.store.strategies.lookup id = some s) (hactive : s.status = .active)
    (hswept : Swept price 0 s.currentPositionSize s.takeProfitTiers left tps h)
    (htrailed : Trailed { s.raised price with currentPositionSize := left, takeProfitTiers := tps } s' h') :
    Move w (.call auth (.checkAndExecuteExits id price))
      ((w.note id (h' ++ (h ++ [.observed price]))).withStrategy id s'.marked)
  | adjusted (auth : Auth) (id : Nat) (newSize : Int) {s : ExitStrategy} (hauth : auth s.user = true)
    (hs : w.store.strategies.lookup id = some s) (hsize : 0 ≤ newSize) :
    Move w (.call auth (.adjustExitPosition s.user id newSize))
      ((w.note id [.adjusted newSize]).withStrategy id { s with
        currentPositionSize := newSize
        status := if newSize = 0 then .complete else s.status })

theorem move_next (w : World) (ev : Event) : Move w ev (next w ev) := by
  cases ev with
  | advance ledger => exact .stay _ ledger
  | call auth c =>
    rw [next]
    rcases exec_cases (invoke auth c) w with ⟨u, hr⟩ | hsame
    case inr => rw [hsame]; exact .stay _ w.ledger
    generalize (invoke auth c).exec w = w' at hr
    have hcreated : ∀ {user : Address} {signalId n : Nat} {entryPrice size : Int} {tps : List TakeProfitTier}
        {sls : List StopLossTier} {w₁ : World}, 0 < size ∧ w₁.note n [.created entryPrice size] =
          w.created ⟨user, signalId, entryPrice, size, tps, sls, entryPrice, .active⟩ →
        note n (.created entryPrice size) w₁ = (.ok u, w') → Move w (.call auth c) w' := by
      rintro user signalId n entryPrice size tps sls w₁ ⟨hsize, hw₁⟩ hnote
      rw [← modify_ok.mp hnote, hw₁]
      exact .created _ _ hsize rfl rfl
    cases c with
    | createExitStrategy =>
      obtain ⟨-, hr⟩ := bind_requireAuth_ok.mp hr
      obtain ⟨n, w₁, hr, hnote⟩ := bind_ok.mp hr
      exact hcreated (createExitStrategy_ok hr) hnote
    | exitStrategyConservative | createExitStrategyBalanced | createExitStrategyAggressive =>
      obtain ⟨-, hr⟩ := bind_requireAuth_ok.mp hr
      obtain ⟨n, w₁, hr, hnote⟩ := bind_ok.mp hr
      obtain ⟨tps, hok⟩ := preset_ok hr
      exact hcreated hok hnote
    | checkAndExecuteExits id price =>
      obtain rfl | ⟨s, hs, hactive, left, tps, h, s', h', hswept, htrailed, rfl⟩ := observe_check_ok hr
      · exact .stay _ w'.ledger
      · exact .checked auth id price hs hactive hswept htrailed
    | adjustExitPosition _ id newSize =>
      obtain ⟨hauth, hr⟩ := bind_requireAuth_ok.mp hr
      obtain ⟨_, w₁, hr, hnote⟩ := bind_ok.mp hr
      obtain ⟨s, hs, rfl, hsize, rfl⟩ := adjustPositionSize_ok hr
      rw [← modify_ok.mp hnote]
      exact .adjusted auth id newSize hauth hs hsize

end Check

/-! ## Soundness -/

/-- What the steps keep of a strategy and its history. -/
structure Kept (s : ExitStrategy) (h : List Happening) : Prop where
  size : 0 ≤ s.currentPositionSize
  fair : ∀ e ∈ h, e.Fair
  balance : sizeSince h = soldSince h + s.currentPositionSize
  tiers : ∀ i, soldBy i h ≤ (executedAt s.takeProfitTiers i).toNat
  peak : s.highestPrice ∈ prices h ∧ ∀ p ∈ prices h, p ≤ s.highestPrice
  ended : s.status ≠ .active → s.currentPositionSize = 0

namespace Kept

variable {s s' : ExitStrategy} {h h' : List Happening}

theorem sound (hk : Kept s h) : Sound s h :=
  ⟨hk.size, hk.fair, hk.balance, fun i => (hk.tiers i).trans (Bool.toNat_le _), hk.peak, hk.ended⟩

theorem created (hsize : 0 < s.currentPositionSize) (hactive : s.status = .active)
    (hpeak : s.highestPrice = s.entryPrice) : Kept s [.created s.entryPrice s.currentPositionSize] where
  size := by omega
  fair e he := by rw [List.mem_singleton.mp he]; trivial
  balance := (Int.zero_add _).symm
  tiers i := Nat.zero_le _
  peak := by rw [hpeak]; simp [prices]
  ended hended := absurd hactive hended

theorem observed (hk : Kept s h) (price : Int) : Kept (s.raised price) (.observed price :: h) where
  size := hk.size
  fair e he := by
    rcases List.mem_cons.mp he with rfl | he
    · trivial
    · exact hk.fair e he
  balance := hk.balance
  tiers i := by
    have hcount : soldBy i (.observed price :: h) = soldBy i h := countP_cons_of_neg (by simp [Happening.isSaleOf])
    rw [hcount]
    exact hk.tiers i
  peak := by
    obtain ⟨hmem, hmax⟩ := hk.peak
    unfold ExitStrategy.raised
    dsimp only
    refine ⟨?_, fun p hp => ?_⟩
    · split
      · exact mem_cons_self
      · exact mem_cons_of_mem _ hmem
    · rcases List.mem_cons.mp hp with rfl | hp
      · split <;> omega
      · have := hmax p hp
        split <;> omega
  ended := hk.ended

/-- The tiers of an active strategy sell. -/
theorem swept (hk : Kept s h) (hactive : s.status = .active) {price left : Int} {tps : List TakeProfitTier}
    (hs : Swept price 0 s.currentPositionSize s.takeProfitTiers left tps h')
    (hfits : Fits price s.currentPositionSize s.takeProfitTiers) :
    Kept { s with currentPositionSize := left, takeProfitTiers := tps } (h' ++ h) where
  size := (hs.fair hk.size hfits).1
  fair e he := by
    rcases List.mem_append.mp he with he | he
    · exact (hs.fair hk.size hfits).2 e he
    · exact hk.fair e he
  balance := by
    obtain ⟨h1, h2⟩ := hs.size_eq h
    have hbalance := hk.balance
    rw [h1, h2]
    dsimp only
    omega
  tiers i := by
    have hi := hs.soldBy_eq.1 i
    rw [Nat.zero_add] at hi
    have hbefore := hk.tiers i
    have hsplit : soldBy i (h' ++ h) = soldBy i h' + soldBy i h := countP_append
    rw [hsplit]
    dsimp only
    omega
  peak := by rw [hs.prices_eq]; exact hk.peak
  ended hended := absurd hactive hended

/-- The trailing stops hold, or sell the rest. -/
theorem trailed (hk : Kept s h) (ht : Trailed s s' h') : Kept s' (h' ++ h) := by
  cases ht with
  | held => exact ⟨hk.size, hk.fair, hk.balance, hk.tiers, hk.peak, hk.ended⟩
  | stopped _ hsize =>
    refine ⟨by dsimp only; omega, fun e he => ?_, ?_, fun i => ?_, hk.peak, fun _ => rfl⟩
    · rcases List.mem_cons.mp he with rfl | he
      · exact ⟨hsize, Int.le_refl _⟩
      · exact hk.fair e he
    · have hbalance := hk.balance
      change sizeSince h = s.currentPositionSize + soldSince h + 0
      omega
    · have hcount : soldBy i ([.sold none s.currentPositionSize s.currentPositionSize] ++ h) = soldBy i h :=
        countP_cons_of_neg (by simp [Happening.isSaleOf])
      rw [hcount]
      exact hk.tiers i

theorem marked (hk : Kept s h) : Kept s.marked h := by
  unfold ExitStrategy.marked
  split
  · rename_i hzero
    exact ⟨hk.size, hk.fair, hk.balance, hk.tiers, hk.peak, fun _ => hzero.1⟩
  · exact hk

theorem adjusted (hk : Kept s h) {newSize : Int} (hsize : 0 ≤ newSize)
    (hregular : s.status = .active ∨ s.status = .complete ∧ newSize = 0) :
    Kept { s with currentPositionSize := newSize, status := if newSize = 0 then .complete else s.status }
      (.adjusted newSize :: h) where
  size := hsize
  fair e he := by
    rcases List.mem_cons.mp he with rfl | he
    · trivial
    · exact hk.fair e he
  balance := (Int.zero_add _).symm
  tiers i := by
    have hcount : soldBy i (.adjusted newSize :: h) = soldBy i h := countP_cons_of_neg (by simp [Happening.isSaleOf])
    rw [hcount]
    exact hk.tiers i
  peak := hk.peak
  ended hended := by
    dsimp only at hended ⊢
    split at hended
    · assumption
    · rcases hregular with h | h
      · exact absurd h hended
      · exact h.2

end Kept

/-- All strategies are kept, and nothing has happened under the ids that are still to come. -/
structure Good (w : World) : Prop where
  kept : ∀ id s, w.store.strategies.lookup id = some s → Kept s (w.history id)
  fresh : ∀ id, w.store.nextId ≤ id → w.store.strategies.lookup id = none ∧ w.history id = []

theorem good_deployed (ledger : Ledger) : Good (.deployed ledger) := ⟨nofun, fun _ _ => ⟨rfl, rfl⟩⟩

theorem Good.frozen_refl {w : World} (h : Good w) : Frozen w w := fun id s hs hended =>
  ⟨s, hs, rfl, (h.kept id s hs).ended hended, rfl⟩

theorem Frozen.trans {w₁ w₂ w₃ : World} (h : Frozen w₁ w₂) (h' : Frozen w₂ w₃) : Frozen w₁ w₃ := by
  intro id s hs hended
  obtain ⟨s₂, hs₂, hstatus₂, -, hsales₂⟩ := h id s hs hended
  obtain ⟨s₃, hs₃, hstatus₃, hsize₃, hsales₃⟩ := h' id s₂ hs₂ (hstatus₂ ▸ hended)
  exact ⟨s₃, hs₃, hstatus₃.trans hstatus₂, hsize₃, hsales₃.trans hsales₂⟩

section Writes

variable {w : World} {id : Nat} {s s' : ExitStrategy} {h : List Happening}

theorem withStrategy_lookup (w : World) (id id' : Nat) (s : ExitStrategy) (h : List Happening) :
    ((w.note id h).withStrategy id s).store.strategies.lookup id' =
      if id' = id then some s else w.store.strategies.lookup id' := Store.lookup_insert_eq ..

theorem note_history (w : World) (id id' : Nat) (h : List Happening) :
    (w.note id h).history id' = if id' = id then h ++ w.history id else w.history id' :=
  Function.update_apply ..

/-- A strategy is replaced, and something happens to it. -/
theorem Good.replace (hw : Good w) (hs : w.store.strategies.lookup id = some s)
    (hk : Kept s' (h ++ w.history id))
    (hended : s.status ≠ .active → s'.status = s.status ∧ s'.currentPositionSize = 0 ∧ sales h = []) :
    Good ((w.note id h).withStrategy id s') ∧ Frozen w ((w.note id h).withStrategy id s') := by
  have hhistory : ∀ id', ((w.note id h).withStrategy id s').history id' =
      if id' = id then h ++ w.history id else w.history id' := fun id' => note_history w id id' h
  refine ⟨⟨fun id' t ht => ?_, fun id' hid' => ?_⟩, fun id' t ht htended => ?_⟩
  · rw [withStrategy_lookup] at ht
    rw [hhistory]
    split at ht
    · rename_i heq
      cases ht
      rw [if_pos heq]
      exact hk
    · rename_i hne
      rw [if_neg hne]
      exact hw.kept id' t ht
  · have hnone := (hw.fresh id' hid').1
    have hne : id' ≠ id := by rintro rfl; rw [hs] at hnone; cases hnone
    rw [withStrategy_lookup, hhistory, if_neg hne, if_neg hne]
    exact hw.fresh id' hid'
  · rw [withStrategy_lookup, hhistory]
    by_cases heq : id' = id
    · subst heq
      cases hs.symm.trans ht
      obtain ⟨h1, h2, h3⟩ := hended htended
      rw [if_pos rfl, if_pos rfl]
      refine ⟨s', rfl, h1, h2, ?_⟩
      unfold sales at h3 ⊢
      rw [filter_append, h3, nil_append]
    · rw [if_neg heq, if_neg heq]
      exact ⟨t, ht, rfl, (hw.kept id' t ht).ended htended, rfl⟩

theorem Good.create (hw : Good w) (hk : Kept s [.created s.entryPrice s.currentPositionSize]) :
    Good (w.created s) ∧ Frozen w (w.created s) := by
  obtain ⟨hnone, hnil⟩ := hw.fresh _ (Nat.le_refl _)
  have hlookup : ∀ id', (w.created s).store.strategies.lookup id' =
      if id' = w.store.nextId then some s else w.store.strategies.lookup id' := fun id' => Store.lookup_insert_eq ..
  have hhistory : ∀ id', (w.created s).history id' =
      if id' = w.store.nextId then [.created s.entryPrice s.currentPositionSize] else w.history id' := by
    intro id'
    refine (note_history w _ id' _).trans ?_
    rw [hnil, append_nil]
  refine ⟨⟨fun id' t ht => ?_, fun id' hid' => ?_⟩, fun id' t ht htended => ?_⟩
  · rw [hlookup] at ht
    rw [hhistory]
    split at ht
    · rename_i heq
      cases ht
      rw [if_pos heq]
      exact hk
    · rename_i hne
      rw [if_neg hne]
      exact hw.kept id' t ht
  · have hid : w.store.nextId + 1 ≤ id' := hid'
    rw [hlookup, hhistory, if_neg (by omega), if_neg (by omega)]
    exact hw.fresh id' (by omega)
  · have hne : id' ≠ w.store.nextId := by rintro rfl; rw [hnone] at ht; cases ht
    rw [hlookup, hhistory, if_neg hne, if_neg hne]
    exact ⟨t, ht, rfl, (hw.kept id' t ht).ended htended, rfl⟩

end Writes

/-- A regular step keeps the strategies sound, and leaves those that have ended as they are. -/
theorem Good.step {w w' : World} {ev : Event} (hw : Good w) (hregular : Regular w ev) (hs : Step w ev w') :
    Good w' ∧ Frozen w w' := by
  obtain ⟨-, hw'⟩ := hs
  have hmove := move_next w ev
  rw [← hw'] at hmove
  cases hmove with
  | stay => exact ⟨⟨hw.kept, hw.fresh⟩, hw.frozen_refl⟩
  | created _ _ hsize hactive hpeak => exact hw.create (.created hsize hactive hpeak)
  | checked _ id price hs hactive hswept htrailed =>
    have hfits := hregular _ hs hactive
    have hobserved := (hw.kept id _ hs).observed price
    have hk := ((hobserved.swept hactive hswept hfits).trailed htrailed).marked
    refine hw.replace hs ?_ fun hended => absurd hactive hended
    rw [append_assoc, append_assoc]
    exact hk
  | adjusted _ id _ hauth hs hsize =>
    have hlive := hregular _ hs hauth rfl hsize
    refine hw.replace hs ((hw.kept id _ hs).adjusted hsize hlive) fun hended => ?_
    obtain ⟨hcomplete, rfl⟩ := hlive.resolve_left hended
    exact ⟨by rw [if_pos rfl, hcomplete], rfl, rfl⟩

/-- In a run in which the shares of every check fit and no strategy that has ended is adjusted, the strategies agree
with their histories, and those that have ended stay as they are. -/
theorem exits_sound (ledger : Ledger) {w w' : World}
    (hrun : Reaches (fun a ev b => Regular a ev ∧ Step a ev b) (.deployed ledger) w)
    (hlater : Reaches (fun a ev b => Regular a ev ∧ Step a ev b) w w') :
    (∀ id s, w.store.strategies.lookup id = some s → Sound s (w.history id)) ∧ Frozen w w' := by
  have hw : Good w := hrun.invariant (good_deployed ledger) fun _ _ _ h hs => (h.step hs.1 hs.2).1
  refine ⟨fun id s hs => (hw.kept id s hs).sound, ?_⟩
  have hfrozen : Good w' ∧ Frozen w w' := by
    refine hlater.invariant (I := fun a => Good a ∧ Frozen w a) ⟨hw, hw.frozen_refl⟩ ?_
    rintro a ev b ⟨ha, hwa⟩ hs
    obtain ⟨hb, hab⟩ := ha.step hs.1 hs.2
    exact ⟨hb, hwa.trans hab⟩
  exact hfrozen.2

namespace Sample

def alice : Address := ⟨1⟩

def ledger : Ledger := ⟨1000, 10⟩

def call (c : Call) : Event := .call (fun _ => true) c

/-- A position of 1000 that Alice entered at 100, with one target at 120 and a trail of 10%. -/
def creating (positionPct : Nat) : Event :=
  call (.createExitStrategy alice 7 100 1000 [⟨120, positionPct, false⟩] [⟨0, 10, true⟩])

def checking (price : Int) : Event := call (.checkAndExecuteExits 0 price)

def adjusting (newSize : Int) : Event := call (.adjustExitPosition alice 0 newSize)

def run (l : List Event) : World := l.foldl next (.deployed ledger)

/-- Half is sold at the target, an adjustment leaves 300, and the stop sells them. -/
def stopped : List Event := [creating 5000, checking 125, adjusting 300, checking 110]

/-- Its history has both sells, each at what was observed before. -/
theorem stopped_sound : ∃ s, (run stopped).store.strategies.lookup 0 = some s ∧ s.status = .stopHit ∧
    (run stopped).history 0 = [.sold none 300 300, .observed 110, .adjusted 300, .sold (some 0) 1000 500,
      .observed 125, .created 100 1000] ∧ Sound s ((run stopped).history 0) := by
  have hrun : Reaches (fun a ev b => Regular a ev ∧ Step a ev b) (.deployed ledger) (run stopped) :=
    Reaches.of_along_and (by decide +kernel)
  have hsound := (exits_sound ledger hrun (.refl _)).1
  obtain ⟨s, hs, hstatus⟩ := Option.map_eq_some_iff.mp (by decide +kernel :
    ((run stopped).store.strategies.lookup 0).map (·.status) = some .stopHit)
  exact ⟨s, hs, hstatus, by decide +kernel, hsound 0 s hs⟩

/-- A tier that sells twice the position. -/
def oversold : List Event := [creating 20000, checking 125]

/-- After the stop, the position is adjusted, to something and to nothing. -/
def reopened : List Event := stopped ++ [adjusting 50]

def relabeled : List Event := stopped ++ [adjusting 0]

/-- A share above 100% sells more than is held; an adjustment gives a strategy that has ended a size again, or
another status. -/
theorem exits_break :
    (Reaches Step (.deployed ledger) (run oversold) ∧
      ¬ ∀ id s, (run oversold).store.strategies.lookup id = some s → Sound s ((run oversold).history id)) ∧
    (∀ l ∈ [reopened, relabeled], Reaches Step (run stopped) (run l) ∧ ¬ Frozen (run stopped) (run l)) ∧
    Reaches Step (.deployed ledger) (run stopped) ∧
    ((run oversold).store.strategies.lookup 0).map (·.currentPositionSize) = some (-1000) ∧
    ((run reopened).store.strategies.lookup 0).map (fun s => (s.currentPositionSize, s.status)) =
      some (50, .stopHit) ∧
    ((run relabeled).store.strategies.lookup 0).map (·.status) = some .complete := by
  have hstopped : ((run stopped).store.strategies.lookup 0).map (·.status) = some .stopHit := by decide +kernel
  have hreopened : ((run reopened).store.strategies.lookup 0).map (fun s => (s.currentPositionSize, s.status)) =
      some (50, .stopHit) := by decide +kernel
  have hrelabeled : ((run relabeled).store.strategies.lookup 0).map (·.status) = some .complete := by decide +kernel
  have hoversold : ((run oversold).store.strategies.lookup 0).map (·.currentPositionSize) = some (-1000) := by
    decide +kernel
  obtain ⟨s, hs, hstatus⟩ := Option.map_eq_some_iff.mp hstopped
  have hended : s.status ≠ .active := by rw [hstatus]; nofun
  have hstep : ∀ ev, Allowed (run stopped) ev → Reaches Step (run stopped) (run (stopped ++ [ev])) := by
    intro ev hev
    exact (Reaches.refl _).tail ⟨hev, by rw [run, foldl_append]; rfl⟩
  refine ⟨⟨Reaches.of_along (by decide +kernel), fun h => ?_⟩, fun l hl => ?_, Reaches.of_along (by decide +kernel),
    hoversold, hreopened, hrelabeled⟩
  · obtain ⟨t, ht, hsize⟩ := Option.map_eq_some_iff.mp hoversold
    have hnonneg := (h 0 t ht).size
    omega
  · simp at hl
    rcases hl with rfl | rfl
    · refine ⟨hstep _ trivial, fun h => ?_⟩
      obtain ⟨t, ht, -, hsize, -⟩ := h 0 s hs hended
      rw [ht] at hreopened
      cases hsize.symm.trans (Prod.mk.inj (Option.some.inj hreopened)).1
    · refine ⟨hstep _ trivial, fun h => ?_⟩
      obtain ⟨t, ht, hsame, -, -⟩ := h 0 s hs hended
      rw [ht] at hrelabeled
      cases (Option.some.inj hrelabeled).symm.trans (hsame.trans hstatus)

end Sample

end CallStake.ExitStrategies
