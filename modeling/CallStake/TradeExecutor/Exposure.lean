import CallStake.Lib.Outcome
import CallStake.TradeExecutor.Footprint
import Mathlib.Algebra.Order.BigOperators.Group.Finset

/-!
# Open interest and numbers of positions

What the executor counts of the open positions: the open interest of a token and the positions of a user.

* `openOf`, `addedFor`: the positions that are open after a journal, and what was added for each of them.
* `Faithful X positions`: the portfolio closes open positions only, and tells which are open.
* `Consistent`: the steps that keep the counts. A trigger that closes a position leaves the open interest as it
  was, an interval of a plan opens a position that is not counted, and a cancellation takes off what its caller
  says. `exposure_accounted`: without these, every run is balanced.
-/

namespace CallStake.TradeExecutor

open Tx

/-! ## Positions -/

/-- A position of a user, by its id. -/
abbrev PositionKey := Address × Nat

/-- The positions that are open after what happened. -/
def openOf : List Entry → Finset PositionKey
  | [] => ∅
  | .opened user id _ :: j => insert (user, id) (openOf j)
  | .closed user id :: j => (openOf j).erase (user, id)
  | _ :: j => openOf j

/-- What was added for a position when it was opened last, and for which token. -/
def addedFor (p : PositionKey) : List Entry → Option (Address × Int)
  | [] => none
  | .opened user id added :: j => if (user, id) = p then added else addedFor p j
  | _ :: j => addedFor p j

/-- The part of the token. -/
def amountOf (t : Address) : Option (Address × Int) → Int
  | some (token, amount) => if token = t then amount else 0
  | none => 0

/-- The open interest of a token: what was added for the given positions. -/
def interest (positions : Finset PositionKey) (j : List Entry) (t : Address) : Int :=
  ∑ p ∈ positions, amountOf t (addedFor p j)

/-- The positions of a user. -/
def countOf (positions : Finset PositionKey) (user : Address) : Nat := (positions.filter (·.1 = user)).card

/-- At no time is more open than the counters can hold. -/
def Fits : List Entry → Prop
  | [] => True
  | e :: j => (∀ t, interest (openOf (e :: j)) (e :: j) t ≤ i128Max) ∧
    (∀ user, countOf (openOf (e :: j)) user ≤ u32Max) ∧ Fits j

section Journal

variable {e : Entry} {j : List Entry} {p : PositionKey} {s : Finset PositionKey}

/-- What happens to queued trades is of no concern. -/
theorem openOf_cons (he : e.subject ≠ none) : openOf (e :: j) = openOf j := by
  cases e <;> first | rfl | exact absurd rfl he

theorem addedFor_cons (he : e.subject ≠ none) : addedFor p (e :: j) = addedFor p j := by
  cases e <;> first | rfl | exact absurd rfl he

theorem interest_congr {j' : List Entry} (h : ∀ p ∈ s, addedFor p j' = addedFor p j) (t : Address) :
    interest s j' t = interest s j t :=
  Finset.sum_congr rfl fun p hp => by rw [h p hp]

/-- A new position counts with what is added for it. -/
theorem interest_opened {user : Address} {id : Nat} (added : Option (Address × Int)) (hnew : (user, id) ∉ s)
    (t : Address) :
    interest (insert (user, id) s) (.opened user id added :: j) t = interest s j t + amountOf t added := by
  have hrest : interest s (.opened user id added :: j) t = interest s j t := by
    refine interest_congr (fun p hp => ?_) t
    have hne : (user, id) ≠ p := by
      rintro rfl
      exact hnew hp
    rw [addedFor, if_neg hne]
  have hself : addedFor (user, id) (.opened user id added :: j) = added := if_pos rfl
  rw [interest, Finset.sum_insert hnew, hself, Int.add_comm]
  exact congrArg (· + amountOf t added) hrest

theorem interest_closed {user : Address} {id : Nat} (hp : (user, id) ∈ s) (t : Address) :
    interest (s.erase (user, id)) (.closed user id :: j) t = interest s j t - amountOf t (addedFor (user, id) j) := by
  have hsum := Finset.sum_erase_add s (fun p => amountOf t (addedFor p j)) hp
  change interest (s.erase (user, id)) j t = _
  unfold interest
  omega

theorem countOf_opened {user : Address} {id : Nat} (hnew : (user, id) ∉ s) (u : Address) :
    countOf (insert (user, id) s) u = countOf s u + if u = user then 1 else 0 := by
  unfold countOf
  by_cases hu : u = user
  · subst hu
    rw [Finset.filter_insert, if_pos rfl, if_pos rfl,
      Finset.card_insert_of_notMem fun h => hnew (Finset.mem_filter.mp h).1]
  · rw [Finset.filter_insert, if_neg (Ne.symm hu), if_neg hu, Nat.add_zero]

theorem countOf_closed {user : Address} {id : Nat} (hp : (user, id) ∈ s) (u : Address) :
    countOf (s.erase (user, id)) u = countOf s u - if u = user then 1 else 0 := by
  unfold countOf
  rw [Finset.filter_erase]
  by_cases hu : u = user
  · subst hu
    have hmem : (u, id) ∈ s.filter (·.1 = u) := Finset.mem_filter.mpr ⟨hp, rfl⟩
    rw [if_pos rfl, Finset.card_erase_of_mem hmem]
  · have hnot : (user, id) ∉ s.filter (·.1 = u) := fun h => hu (Finset.mem_filter.mp h).2.symm
    rw [if_neg hu, Finset.erase_eq_of_notMem hnot, Nat.sub_zero]

/-- A part is at most the whole when every part is from `0` on. -/
theorem amountOf_le_interest (hnonneg : ∀ p ∈ s, ∀ t, 0 ≤ amountOf t (addedFor p j)) (hp : p ∈ s) (t : Address) :
    amountOf t (addedFor p j) ≤ interest s j t :=
  Finset.single_le_sum (f := fun p => amountOf t (addedFor p j)) (fun p hp => hnonneg p hp t) hp

theorem Fits.interest_le (h : Fits j) (t : Address) : interest (openOf j) j t ≤ i128Max := by
  cases j with
  | nil => exact (by decide : (0 : Int) ≤ i128Max)
  | cons e j => exact h.1 t

theorem interest_nonneg (hnonneg : ∀ p ∈ s, ∀ t, 0 ≤ amountOf t (addedFor p j)) (t : Address) :
    0 ≤ interest s j t :=
  Finset.sum_nonneg fun p hp => hnonneg p hp t

end Journal

/-! ## The portfolio -/

/-- The portfolio gives a new position a new id, and closes it only while it is open. What else is called leaves
the positions alone. -/
structure Faithful {ξ : Type} (X : Externals ξ) (positions : ξ → Finset PositionKey) : Prop where
  record : ∀ {portfolio user cap ext id ext'}, X.validateAndRecord portfolio user cap ext = some (id, ext') →
    (user, id) ∉ positions ext ∧ positions ext' = insert (user, id) (positions ext)
  close : ∀ {portfolio user id pnl ext ext'}, X.closePosition portfolio user id pnl ext = some ext' →
    (user, id) ∈ positions ext ∧ positions ext' = (positions ext).erase (user, id)
  closeKeeper : ∀ {portfolio contract user id pair ext ext'},
    X.closePositionKeeper portfolio contract user id pair ext = some ext' →
    (user, id) ∈ positions ext ∧ positions ext' = (positions ext).erase (user, id)
  approve : ∀ {token spender amount expiration ext ext'},
    X.approve token spender amount expiration ext = .ok ext' → positions ext' = positions ext
  swap : ∀ {router contract src dst amount minOut ext ext'},
    X.swap router contract src dst amount minOut ext = .ok ext' → positions ext' = positions ext

/-- The counts are the ones of the open positions. -/
structure Balanced {ξ : Type} (positions : ξ → Finset PositionKey) (w : World ξ) : Prop where
  interest : ∀ t, w.store.openInterest t = interest (positions w.ext) w.journal t
  count : ∀ user, w.store.userPositionCount user = countOf (positions w.ext) user

/-- The counts are the ones of the journal, and every position has an amount. -/
structure Booked {ξ : Type} (positions : ξ → Finset PositionKey) (w : World ξ) : Prop where
  positions_eq : positions w.ext = openOf w.journal
  balanced : Balanced positions w
  nonneg : ∀ p ∈ positions w.ext, ∀ t, 0 ≤ amountOf t (addedFor p w.journal)

/-- As long as the counters could hold what is open. -/
def Inv {ξ : Type} (positions : ξ → Finset PositionKey) (w : World ξ) : Prop := Fits w.journal → Booked positions w

/-- Nothing that is counted differs. -/
structure SameBooks {ξ : Type} (positions : ξ → Finset PositionKey) (a b : World ξ) : Prop where
  interest : b.store.exposure.openInterest = a.store.exposure.openInterest
  count : b.store.exposure.userPositionCount = a.store.exposure.userPositionCount
  journal : b.journal = a.journal
  positions : positions b.ext = positions a.ext

section Books

variable {ξ : Type} {X : Externals ξ} {positions : ξ → Finset PositionKey} {a b w : World ξ}

theorem openInterest_congr {s s' : Storage} (h : s'.exposure.openInterest = s.exposure.openInterest) (t : Address) :
    s'.openInterest t = s.openInterest t := by unfold Storage.openInterest; rw [h]

theorem userPositionCount_congr {s s' : Storage} (h : s'.exposure.userPositionCount = s.exposure.userPositionCount)
    (user : Address) : s'.userPositionCount user = s.userPositionCount user := by
  unfold Storage.userPositionCount; rw [h]

theorem Inv.same (hI : Inv positions a) (h : SameBooks positions a b) : Inv positions b := by
  intro hfits
  rw [h.journal] at hfits
  have hb := hI hfits
  constructor
  · rw [h.positions, h.journal]
    exact hb.positions_eq
  · constructor
    · intro t
      rw [openInterest_congr h.interest, h.positions, h.journal]
      exact hb.balanced.interest t
    · intro user
      rw [userPositionCount_congr h.count, h.positions]
      exact hb.balanced.count user
  · rw [h.positions, h.journal]
    exact hb.nonneg

theorem within_save {I : World ξ → Prop} (hI : ∀ a b, SameBooks positions a b → I a → I b)
    {f : Storage → Storage} (hf : ∀ s, (f s).exposure.openInterest = s.exposure.openInterest ∧
      (f s).exposure.userPositionCount = s.exposure.userPositionCount) : Tx.Within (Tx.Keeps I) (save f) :=
  ⟨fun w => hI _ _ ⟨(hf w.store).1, (hf w.store).2, rfl, rfl⟩⟩

theorem within_tryInvoke {I : World ξ → Prop} (hI : ∀ a b, SameBooks positions a b → I a → I b)
    {f : ξ → Except InvokeFailure ξ} (hf : ∀ ext ext', f ext = .ok ext' → positions ext' = positions ext) :
    Tx.Within (Tx.Keeps I) (tryInvoke f) := by
  refine ⟨fun w => ?_⟩
  unfold tryInvoke
  split
  · rename_i ext' he
    exact hI _ _ ⟨rfl, rfl, rfl, hf _ _ he⟩
  · exact id

/-- A property of the books is kept by what a trade writes besides. -/
theorem quiet_keeps (hX : Faithful X positions) {I : World ξ → Prop}
    (hI : ∀ a b, SameBooks positions a b → I a → I b) : Quiet X (Tx.Keeps I) where
  exposure _ hf := within_save hI fun s => ⟨(hf s.exposure).1, (hf s.exposure).2.1⟩
  breaker := within_marketCircuitBreakerActive ⟨fun _ => hI _ _ ⟨rfl, rfl, rfl, rfl⟩⟩
  receipts _ := within_save hI fun _ => ⟨rfl, rfl⟩
  orders _ := within_save hI fun _ => ⟨rfl, rfl⟩
  thresholds _ := within_save hI fun _ => ⟨rfl, rfl⟩
  replay _ _ := hI _ _ ⟨rfl, rfl, rfl, rfl⟩
  lock _ _ := hI _ _ ⟨rfl, rfl, rfl, rfl⟩
  approve _ _ _ _ := within_tryInvoke hI fun _ _ he => hX.approve he
  swap _ _ _ _ _ _ := within_tryInvoke hI fun _ _ he => hX.swap he

/-- What happens to queued trades keeps the books. -/
theorem queues_keeps : Queues (Tx.Keeps (Inv positions)) where
  queue _ := within_save (fun _ _ h hI => hI.same h) fun _ => ⟨rfl, rfl⟩
  note e he := by
    refine ⟨fun w hI hfits => ?_⟩
    have hb := hI hfits.2.2
    refine ⟨?_, ⟨fun t => ?_, hb.balanced.count⟩, fun p hp t => ?_⟩
    · exact hb.positions_eq.trans (openOf_cons he).symm
    · exact (hb.balanced.interest t).trans (interest_congr (fun p _ => addedFor_cons he) t).symm
    · change 0 ≤ amountOf t (addedFor p (e :: w.journal))
      rw [addedFor_cons he]
      exact hb.nonneg p hp t

/-! ## Opening -/

theorem openPosition_eq {portfolio : Address} {t : TradeInput} {exempt : Bool} {id : Nat} {ext' : ξ}
    (h : X.validateAndRecord portfolio t.user (maxPositions exempt) w.ext = some (id, ext')) :
    openPosition X portfolio t exempt w = (.ok (), { w with
      ext := ext'
      journal := .opened t.user id (some (t.token, t.amount)) :: w.journal
      store.exposure := { w.store.exposure with
        openInterest := w.store.exposure.openInterest.insert t.token
          ((checkedAdd (w.store.openInterest t.token) t.amount).getD i128Max)
        userPositionCount := w.store.exposure.userPositionCount.insert t.user
          (u32Add (w.store.userPositionCount t.user) 1) } }) := by
  change Tx.bind (validateAndRecordPosition X portfolio t.user exempt) _ w = _
  unfold Tx.bind validateAndRecordPosition
  rw [h]
  rfl

theorem openPosition_error {portfolio : Address} {t : TradeInput} {exempt : Bool}
    (h : X.validateAndRecord portfolio t.user (maxPositions exempt) w.ext = none) :
    (openPosition X portfolio t exempt w).2 = w := by
  change (Tx.bind (validateAndRecordPosition X portfolio t.user exempt) _ w).2 = _
  unfold Tx.bind validateAndRecordPosition
  rw [h]

theorem openPosition_keeps (hX : Faithful X positions) {t : TradeInput} (hamount : 0 < t.amount)
    (portfolio : Address) (exempt : Bool) :
    Tx.Within (Tx.Keeps (Inv positions)) (openPosition X portfolio t exempt) := by
  refine ⟨fun w hI => ?_⟩
  rcases h : X.validateAndRecord portfolio t.user (maxPositions exempt) w.ext with _ | ⟨id, ext'⟩
  · rw [openPosition_error h]
    exact hI
  · rw [openPosition_eq h]
    intro hfits
    obtain ⟨hinterest, hcount, hfits⟩ := hfits
    have hb := hI hfits
    obtain ⟨hnew, hext⟩ := hX.record h
    have hopen : openOf (.opened t.user id (some (t.token, t.amount)) :: w.journal) = positions ext' := by
      rw [hext, hb.positions_eq]
      rfl
    have hsum := interest_opened (j := w.journal) (some (t.token, t.amount)) hnew
    rw [← hext] at hsum
    have hcard := countOf_opened hnew
    rw [← hext] at hcard
    rw [hopen] at hinterest hcount
    -- the counters and the sums over the journal grow by the same position
    refine ⟨hopen.symm, ⟨fun t' => ?_, fun user => ?_⟩, fun p hp t' => ?_⟩
    · have hle := hinterest t.token
      have hbefore := hb.balanced.interest t.token
      have hnonneg := interest_nonneg hb.nonneg t.token
      have hnow := hsum t'
      change ((w.store.exposure.openInterest.insert _ _).lookup t').getD 0 = _
      rw [Store.getD_insert]
      by_cases ht : t' = t.token
      · subst ht
        change _ = _ + (if t.token = t.token then t.amount else 0) at hnow
        rw [if_pos rfl] at hnow ⊢
        rw [checkedAdd_getD (by unfold i128Min; omega) (by omega), hbefore]
        exact hnow.symm
      · change _ = _ + (if t.token = t' then t.amount else 0) at hnow
        rw [if_neg (Ne.symm ht), Int.add_zero] at hnow
        rw [if_neg ht]
        exact (hb.balanced.interest t').trans hnow.symm
    · have hle := hcount t.user
      have hbefore := hb.balanced.count t.user
      have hnow := hcard user
      change ((w.store.exposure.userPositionCount.insert _ _).lookup user).getD 0 = _
      rw [Store.getD_insert]
      by_cases hu : user = t.user
      · subst hu
        rw [if_pos rfl] at hnow ⊢
        refine Eq.trans ?_ hnow.symm
        rw [hbefore]
        unfold u32Add
        omega
      · rw [if_neg hu, Nat.add_zero] at hnow
        rw [if_neg hu]
        exact (hb.balanced.count user).trans hnow.symm
    · change p ∈ positions ext' at hp
      change 0 ≤ amountOf t' (if (t.user, id) = p then _ else _)
      split
      · change 0 ≤ if t.token = t' then t.amount else 0
        split <;> omega
      · rename_i hne
        rw [hext] at hp
        exact hb.nonneg p ((Finset.mem_insert.mp hp).resolve_left (Ne.symm hne)) t'

/-! ## Closing -/

/-- A cancellation takes off what was added, if the position is open. -/
def TakesOff (positions : ξ → Finset PositionKey) (p : CancelParams) (w : World ξ) : Prop :=
  (p.user, p.tradeId) ∈ positions w.ext → addedFor (p.user, p.tradeId) w.journal = some (p.fromToken, p.amount)

theorem closePosition_eq {portfolio : Address} {p : CancelParams} {pnl : Int} {ext' : ξ}
    (h : X.closePosition portfolio p.user p.tradeId pnl w.ext = some ext') :
    closePosition X portfolio p pnl w = (.ok (), { w with
      ext := ext'
      journal := .closed p.user p.tradeId :: w.journal
      store.exposure := { w.store.exposure with
        openInterest := w.store.exposure.openInterest.insert p.fromToken
          (max (saturatingSub (w.store.openInterest p.fromToken) p.amount) 0)
        userPositionCount := w.store.exposure.userPositionCount.insert p.user
          (w.store.userPositionCount p.user - 1) } }) := by
  change Tx.bind (invoke _) _ w = _
  unfold Tx.bind invoke
  rw [h]
  rfl

theorem closePosition_error {portfolio : Address} {p : CancelParams} {pnl : Int}
    (h : X.closePosition portfolio p.user p.tradeId pnl w.ext = none) :
    (closePosition X portfolio p pnl w).2 = w := by
  change (Tx.bind (invoke _) _ w).2 = _
  unfold Tx.bind invoke
  rw [h]

theorem closePosition_keeps (hX : Faithful X positions) (portfolio : Address) (p : CancelParams) (pnl : Int) :
    Tx.Within (Tx.Keeps fun w => Inv positions w ∧ TakesOff positions p w) (closePosition X portfolio p pnl) := by
  refine ⟨fun w ⟨hI, htakes⟩ => ?_⟩
  rcases h : X.closePosition portfolio p.user p.tradeId pnl w.ext with _ | ext'
  · rw [closePosition_error h]
    exact ⟨hI, htakes⟩
  · rw [closePosition_eq h]
    obtain ⟨hmem, hext⟩ := hX.close h
    refine ⟨fun ⟨_, _, hfits⟩ => ?_, fun hmem' => ?_⟩
    · have hb := hI hfits
      have hadded := htakes hmem
      have hsum := interest_closed (j := w.journal) hmem
      have hcard := countOf_closed hmem
      rw [← hext, hadded] at hsum
      rw [← hext] at hcard
      refine ⟨?_, ⟨fun t => ?_, fun user => ?_⟩, fun q hq t => ?_⟩
      · change positions ext' = (openOf w.journal).erase (p.user, p.tradeId)
        rw [hext, hb.positions_eq]
      · have hpart := amountOf_le_interest hb.nonneg hmem p.fromToken
        have hnonneg := hb.nonneg _ hmem p.fromToken
        have hbefore := hb.balanced.interest p.fromToken
        have hnow := hsum t
        rw [hadded] at hpart hnonneg
        change (if p.fromToken = p.fromToken then p.amount else 0) ≤ _ at hpart
        change 0 ≤ (if p.fromToken = p.fromToken then p.amount else 0) at hnonneg
        rw [if_pos rfl] at hpart hnonneg
        change ((w.store.exposure.openInterest.insert _ _).lookup t).getD 0 = _
        rw [Store.getD_insert]
        change _ = _ - (if p.fromToken = t then p.amount else 0) at hnow
        by_cases ht : t = p.fromToken
        · subst ht
          rw [if_pos rfl] at hnow ⊢
          refine Eq.trans ?_ hnow.symm
          have hmax := hb.positions_eq ▸ hfits.interest_le p.fromToken
          rw [hbefore, saturatingSub_part hnonneg hpart hmax]
          omega
        · rw [if_neg (Ne.symm ht), Int.sub_zero] at hnow
          rw [if_neg ht]
          exact (hb.balanced.interest t).trans hnow.symm
      · have hbefore := hb.balanced.count p.user
        have hnow := hcard user
        change ((w.store.exposure.userPositionCount.insert _ _).lookup user).getD 0 = _
        rw [Store.getD_insert]
        by_cases hu : user = p.user
        · subst hu
          rw [if_pos rfl] at hnow ⊢
          rw [hbefore]
          exact hnow.symm
        · rw [if_neg hu, Nat.sub_zero] at hnow
          rw [if_neg hu]
          exact (hb.balanced.count user).trans hnow.symm
      · change q ∈ positions ext' at hq
        rw [hext] at hq
        exact hb.nonneg q (Finset.mem_of_mem_erase hq) t
    · change _ ∈ positions ext' at hmem'
      rw [hext] at hmem'
      exact absurd rfl (Finset.mem_erase.mp hmem').1

/-! ## Triggers -/

theorem closeIf_ok {reached : Prop} [Decidable reached] {env : Env} {portfolio user : Address} {tradeId pair : Nat}
    {r : Bool} {w' : World ξ} (hr : closeIf X env reached portfolio user tradeId pair w = (.ok r, w')) :
    (¬ reached ∧ w' = w) ∨
    (reached ∧ (X.closePositionKeeper portfolio env.contract user tradeId pair w.ext).isSome) := by
  obtain ⟨_, w₁, hclose, hr⟩ := Tx.bind_ok.mp hr
  obtain ⟨-, rfl⟩ := Tx.pure_ok.mp hr
  rw [when_ok] at hclose
  split at hclose
  · rename_i hreached
    obtain ⟨_, w₂, hinvoke, -⟩ := Tx.bind_ok.mp hclose
    refine .inr ⟨hreached, ?_⟩
    unfold invoke at hinvoke
    split at hinvoke
    · rename_i he
      rw [he]
      rfl
    · cases hinvoke
  · rename_i hnot
    exact .inl ⟨hnot, hclose.symm⟩

/-- The price that a trigger would read, if it is fresh. -/
def currentPrice (X : Externals ξ) (w : World ξ) (assetPair : Nat) : Option Int :=
  w.store.config.oracle.bind fun oracle => (fetchCurrentPrice X oracle assetPair w).1.toOption

def stopLossReached (X : Externals ξ) (w : World ξ) (user : Address) (tradeId assetPair : Nat) : Prop :=
  ∃ stop ∈ w.store.thresholds.stopLoss.lookup (user, tradeId), ∃ price ∈ currentPrice X w assetPair, price ≤ stop

/-- A stop loss that is reached too comes first. -/
def takeProfitReached (X : Externals ξ) (w : World ξ) (user : Address) (tradeId assetPair : Nat) : Prop :=
  ∃ profit ∈ w.store.thresholds.takeProfit.lookup (user, tradeId), ∃ price ∈ currentPrice X w assetPair,
    (∀ stop ∈ w.store.thresholds.stopLoss.lookup (user, tradeId), stop < price) ∧ profit ≤ price

def trailingStopReached (X : Externals ξ) (w : World ξ) (user : Address) (tradeId assetPair : Nat) : Prop :=
  ∃ trail ∈ w.store.thresholds.trailBps.lookup (user, tradeId),
    ∃ peak ∈ w.store.thresholds.trailPeak.lookup (user, tradeId), ∃ price ∈ currentPrice X w assetPair,
      price ≤ (clamp (max peak price * (10000 - trail))).tdiv 10000

section Reached

variable {env : Env} {w' : World ξ} {user : Address} {tradeId assetPair : Nat} {r : Bool}

theorem fetchOracleAndPortfolio_ok {contracts : Address × Address}
    (hr : fetchOracleAndPortfolio w = (.ok contracts, w')) :
    w.store.config.oracle = some contracts.1 ∧ w' = w := by
  simp only [fetchOracleAndPortfolio, load, bind_gets_ok, bind_ofOption_ok, pure_ok] at hr
  obtain ⟨oracle, horacle, portfolio, -, rfl, rfl⟩ := hr
  exact ⟨horacle, rfl⟩

theorem view_ok {α : Type} {f : ξ → Option α} {v : α} (hr : view f w = (.ok v, w')) : f w.ext = some v ∧ w' = w := by
  unfold view at hr
  obtain ⟨hf, rfl⟩ := Tx.ofOption_ok.mp hr
  exact ⟨hf, rfl⟩

theorem fetchCurrentPrice_ok {oracle : Address} {price : Int} (horacle : w.store.config.oracle = some oracle)
    (hr : fetchCurrentPrice X oracle assetPair w = (.ok price, w')) :
    price ∈ currentPrice X w assetPair ∧ w' = w := by
  constructor
  · rw [currentPrice, horacle, Option.bind_some, hr]
    rfl
  · obtain ⟨updatedAt, w₁, hview, hr⟩ := Tx.bind_ok.mp hr
    simp only [timestamp, bind_failIf_ok, bind_gets_ok] at hr
    exact (view_ok hr.2.2).2.trans (view_ok hview).2

/-- A position that the keeper closes is open. -/
theorem open_of_close (hX : Faithful X positions) {portfolio : Address}
    (h : (X.closePositionKeeper portfolio env.contract user tradeId assetPair w.ext).isSome) :
    (user, tradeId) ∈ positions w.ext := by
  obtain ⟨ext', hext⟩ := Option.isSome_iff_exists.mp h
  exact (hX.closeKeeper hext).1

/-- A stop loss closes a position that is open, when it is reached. -/
theorem checkAndTriggerStopLoss_ok (hX : Faithful X positions)
    (hr : checkAndTriggerStopLoss X env user tradeId assetPair w = (.ok r, w')) :
    w' = w ∨ (stopLossReached X w user tradeId assetPair ∧ (user, tradeId) ∈ positions w.ext) := by
  obtain ⟨contracts, w₁, hcontracts, hr₁⟩ := Tx.bind_ok.mp hr
  obtain ⟨horacle, rfl⟩ := fetchOracleAndPortfolio_ok hcontracts
  simp only [load, bind_gets_ok, bind_ofOption_ok] at hr₁
  obtain ⟨stop, hstop, hr₂⟩ := hr₁
  obtain ⟨price, w₂, hprice, hr₃⟩ := Tx.bind_ok.mp hr₂
  obtain ⟨hcurrent, rfl⟩ := fetchCurrentPrice_ok horacle hprice
  obtain ⟨-, hsame⟩ | ⟨hreached, hclose⟩ := closeIf_ok hr₃
  · exact .inl hsame
  · exact .inr ⟨⟨stop, hstop, price, hcurrent, hreached⟩, open_of_close hX hclose⟩

theorem checkAndTriggerTakeProfit_ok (hX : Faithful X positions)
    (hr : checkAndTriggerTakeProfit X env user tradeId assetPair w = (.ok r, w')) :
    w' = w ∨ (takeProfitReached X w user tradeId assetPair ∧ (user, tradeId) ∈ positions w.ext) := by
  obtain ⟨contracts, w₁, hcontracts, hr₁⟩ := Tx.bind_ok.mp hr
  obtain ⟨horacle, rfl⟩ := fetchOracleAndPortfolio_ok hcontracts
  simp only [load, bind_gets_ok, bind_ofOption_ok] at hr₁
  obtain ⟨profit, hprofit, hr₂⟩ := hr₁
  obtain ⟨price, w₂, hprice, hr₃⟩ := Tx.bind_ok.mp hr₂
  obtain ⟨hcurrent, rfl⟩ := fetchCurrentPrice_ok horacle hprice
  simp only [bind_gets_ok] at hr₃
  obtain ⟨-, hsame⟩ | ⟨⟨hstop, hreached⟩, hclose⟩ := closeIf_ok hr₃
  · exact .inl hsame
  · have habove : ∀ stop ∈ w₂.store.thresholds.stopLoss.lookup (user, tradeId), stop < price :=
      fun stop hs => Int.not_le.mp fun hle => hstop ⟨stop, hs, hle⟩
    exact .inr ⟨⟨profit, hprofit, price, hcurrent, habove, hreached⟩, open_of_close hX hclose⟩

theorem updateTrailingPeak_ok (positions : ξ → Finset PositionKey) {price peak : Int}
    (hr : updateTrailingPeak user tradeId price w = (.ok peak, w')) :
    peak = max ((w.store.thresholds.trailPeak.lookup (user, tradeId)).getD 0) price ∧ SameBooks positions w w' ∧
      w'.ext = w.ext := by
  simp only [updateTrailingPeak, load, bind_gets_ok] at hr
  obtain ⟨_, w₁, hwhen, hr⟩ := Tx.bind_ok.mp hr
  obtain ⟨rfl, rfl⟩ := Tx.pure_ok.mp hr
  rw [when_ok] at hwhen
  split at hwhen
  · simp [saveThresholds, save] at hwhen
    subst hwhen
    exact ⟨rfl, ⟨rfl, rfl, rfl, rfl⟩, rfl⟩
  · subst hwhen
    exact ⟨rfl, ⟨rfl, rfl, rfl, rfl⟩, rfl⟩

theorem checkAndTriggerTrailingStop_ok (hX : Faithful X positions)
    (hr : checkAndTriggerTrailingStop X env user tradeId assetPair w = (.ok r, w')) :
    SameBooks positions w w' ∨
      (trailingStopReached X w user tradeId assetPair ∧ (user, tradeId) ∈ positions w.ext) := by
  obtain ⟨contracts, w₁, hcontracts, hr₁⟩ := Tx.bind_ok.mp hr
  obtain ⟨horacle, rfl⟩ := fetchOracleAndPortfolio_ok hcontracts
  simp only [load, bind_gets_ok, bind_ofOption_ok] at hr₁
  obtain ⟨trail, htrail, hr₂⟩ := hr₁
  obtain ⟨peak, hpeak, htrail⟩ := Option.bind_eq_some_iff.mp htrail
  obtain ⟨price, w₂, hprice, hr₃⟩ := Tx.bind_ok.mp hr₂
  obtain ⟨hcurrent, rfl⟩ := fetchCurrentPrice_ok horacle hprice
  obtain ⟨newPeak, w₃, hupdate, hr₄⟩ := Tx.bind_ok.mp hr₃
  obtain ⟨rfl, hsame₁, hext⟩ := updateTrailingPeak_ok positions hupdate
  obtain ⟨-, hsame⟩ | ⟨hreached, hclose⟩ := closeIf_ok hr₄
  · exact .inl (hsame ▸ hsame₁)
  · rw [hpeak, Option.getD_some] at hreached
    rw [hext] at hclose
    exact .inr ⟨⟨trail, htrail, peak, hpeak, price, hcurrent, hreached⟩, open_of_close hX hclose⟩

end Reached

/-! ## Plans -/

/-- An interval that is due opens a position. -/
def intervalOpens (X : Externals ξ) (w : World ξ) (user : Address) (signalId : Nat) : Prop :=
  w.store.isFlagEnabled FEAT_DCA = true ∧
    (∃ plan ∈ w.store.orders.dcaPlans.lookup (user, signalId),
      ¬ (0 < plan.signalExpiryLedger ∧ plan.signalExpiryLedger ≤ w.ledger.sequence) ∧
      plan.nextIntervalLedger ≤ w.ledger.sequence) ∧
    ∃ portfolio ∈ w.store.config.userPortfolio,
      (X.validateAndRecord portfolio user (maxPositions (w.store.exempt user)) w.ext).isSome

theorem openInterval_ok {user portfolio : Address} {u : Unit} {w' : World ξ}
    (hr : openInterval X user (some portfolio) w = (.ok u, w')) :
    (X.validateAndRecord portfolio user (maxPositions (w.store.exempt user)) w.ext).isSome := by
  simp only [openInterval, load, bind_gets_ok] at hr
  obtain ⟨id, w₁, hrecord, -⟩ := Tx.bind_ok.mp hr
  unfold validateAndRecordPosition at hrecord
  split at hrecord
  · rename_i he
    rw [he]
    rfl
  · cases hrecord

theorem executeDCAInterval_keeps (hX : Faithful X positions) {user : Address} {signalId : Nat} {r : Bool}
    {w' : World ξ} (hnot : ¬ intervalOpens X w user signalId) (hI : Inv positions w)
    (hr : executeDCAInterval X user signalId w = (.ok r, w')) : Inv positions w' := by
  simp only [executeDCAInterval, requireFeatureEnabled, load, sequence, bind_assoc_eq, bind_gets_ok,
    bind_failIf_ok, bind_ofOption_ok] at hr
  obtain ⟨henabled, plan, hplan, hexpiry, hdue, hr⟩ := hr
  obtain ⟨_, w₁, hopen, hr₁⟩ := Tx.bind_ok.mp hr
  cases hportfolio : w.store.config.userPortfolio with
  | some portfolio =>
    rw [hportfolio] at hopen
    refine absurd ⟨by simpa using henabled, ⟨plan, hplan, hexpiry, Nat.not_lt.mp hdue⟩, portfolio, hportfolio, ?_⟩
      hnot
    exact openInterval_ok hopen
  | none =>
    rw [hportfolio] at hopen
    obtain ⟨-, rfl⟩ := Tx.pure_ok.mp hopen
    have := quiet_keeps hX (I := Inv positions) fun _ _ h hI => hI.same h
    exact Tx.Within.of_run (R := Tx.Keeps (Inv positions)) inferInstance hr₁ hI

/-! ## Runs -/

/-- Steps after which the counts are still the ones of the open positions. -/
def Consistent (X : Externals ξ) (positions : ξ → Finset PositionKey) (w : World ξ) : Event ξ → Prop
  | .call _ (.executeDCAInterval user signalId) => ¬ intervalOpens X w user signalId
  | .call _ (.cancelCopyTrade _ p _) => TakesOff positions p w
  | .call _ (.checkAndTriggerStopLoss user tradeId pair) =>
    (user, tradeId) ∈ positions w.ext → ¬ stopLossReached X w user tradeId pair
  | .call _ (.checkAndTriggerTakeProfit user tradeId pair) =>
    (user, tradeId) ∈ positions w.ext → ¬ takeProfitReached X w user tradeId pair
  | .call _ (.checkAndTriggerTrailingStop user tradeId pair) =>
    (user, tradeId) ∈ positions w.ext → ¬ trailingStopReached X w user tradeId pair
  | _ => True

/-- What happens in the other contracts leaves the positions alone. -/
def Undisturbed (positions : ξ → Finset PositionKey) (w : World ξ) : Event ξ → Prop
  | .external ext => positions ext = positions w.ext
  | _ => True

theorem call_keeps (hX : Faithful X positions) {env : Env} {c : Call} {u : Unit} {w' : World ξ}
    (hcons : Consistent X positions w (.call env c)) (hI : Inv positions w)
    (hr : call X env c w = (.ok u, w')) : Inv positions w' := by
  have := quiet_keeps hX (I := Inv positions) fun _ _ h hI => hI.same h
  have : Queues (Tx.Keeps (Inv positions)) := queues_keeps
  have : Settles X (Tx.Keeps (Inv positions)) :=
    settles_of_opens fun _ portfolio exempt h => openPosition_keeps hX h portfolio exempt
  unfold call at hr
  cases c with
  | executeDCAInterval =>
    obtain ⟨_, hr⟩ := Tx.void_ok.mp hr
    exact executeDCAInterval_keeps hX hcons hI hr
  | cancelCopyTrade _ p =>
    have := quiet_keeps hX (I := fun w => Inv positions w ∧ TakesOff positions p w)
      fun a b h hI => ⟨hI.1.same h, fun hmem => by rw [h.positions] at hmem; rw [h.journal]; exact hI.2 hmem⟩
    have := closePosition_keeps hX (p := p)
    exact (Tx.Within.of_run (R := Tx.Keeps fun w => Inv positions w ∧ TakesOff positions p w) inferInstance hr
      ⟨hI, hcons⟩).1
  | checkAndTriggerStopLoss =>
    obtain ⟨_, hr⟩ := Tx.void_ok.mp hr
    obtain rfl | ⟨hreached, hmem⟩ := checkAndTriggerStopLoss_ok hX hr
    · exact hI
    · exact absurd hreached (hcons hmem)
  | checkAndTriggerTakeProfit =>
    obtain ⟨_, hr⟩ := Tx.void_ok.mp hr
    obtain rfl | ⟨hreached, hmem⟩ := checkAndTriggerTakeProfit_ok hX hr
    · exact hI
    · exact absurd hreached (hcons hmem)
  | checkAndTriggerTrailingStop =>
    obtain ⟨_, hr⟩ := Tx.void_ok.mp hr
    obtain hsame | ⟨hreached, hmem⟩ := checkAndTriggerTrailingStop_ok hX hr
    · exact hI.same hsame
    · exact absurd hreached (hcons hmem)
  | _ => exact Tx.Within.of_run (R := Tx.Keeps (Inv positions)) inferInstance hr hI

theorem next_keeps (hX : Faithful X positions) {ev : Event ξ} (hundisturbed : Undisturbed positions w ev)
    (hcons : Consistent X positions w ev) (hI : Inv positions w) : Inv positions (next X w ev) := by
  cases ev with
  | call env c =>
    change Inv positions ((call X env c).exec w)
    rcases exec_cases (call X env c) w with ⟨u, hr⟩ | hsame
    · exact call_keeps hX hcons hI hr
    · rw [hsame]
      exact hI
  | advance | configure | setBreaker => exact hI.same ⟨rfl, rfl, rfl, rfl⟩
  | external => exact hI.same ⟨rfl, rfl, rfl, hundisturbed⟩

/-- In every run of consistent steps the counts are the ones of the open positions, as long as they fit. -/
theorem exposure_accounted (hX : Faithful X positions) (ledger : Ledger) (config : Config) (ext : ξ)
    (hnone : positions ext = ∅)
    (hrun : Reaches (fun a ev b => Consistent X positions a ev ∧ Undisturbed positions a ev ∧ Step X a ev b)
      (World.start ledger config ext) w) (hfits : Fits w.journal) : Balanced positions w := by
  refine (hrun.invariant (I := Inv positions) (fun _ => ⟨hnone, ⟨fun t => ?_, fun user => ?_⟩, fun p hp => ?_⟩) ?_
    hfits).balanced
  · change (0 : Int) = interest (positions ext) [] t
    rw [hnone]
    rfl
  · change 0 = countOf (positions ext) user
    rw [hnone]
    rfl
  · change p ∈ positions ext at hp
    rw [hnone] at hp
    cases hp
  · rintro a ev b hI ⟨hcons, hundisturbed, -, rfl⟩
    exact next_keeps hX hundisturbed hcons hI

end Books

namespace Sample

def positionsOf (c : Contracts) : Finset PositionKey := c.positions.toFinset

theorem Contracts.freshId_notMem (c : Contracts) (user : Address) : (user, c.freshId) ∉ positionsOf c := by
  intro hmem
  have hle : c.freshId ≤ (c.positions.map Prod.snd).sum :=
    List.single_le_sum (fun _ _ => Nat.zero_le _) _ (List.mem_map_of_mem (List.mem_toFinset.mp hmem))
  unfold Contracts.freshId at hle
  omega

theorem Contracts.close_some {c c' : Contracts} {user : Address} {id : Nat} (h : c.close user id = some c') :
    (user, id) ∈ positionsOf c ∧ positionsOf c' = (positionsOf c).erase (user, id) := by
  unfold Contracts.close at h
  split at h
  · rename_i hmem
    cases h
    refine ⟨List.mem_toFinset.mpr hmem, ?_⟩
    ext p
    simp [positionsOf, and_comm]
  · cases h

theorem faithful : Faithful externals positionsOf where
  record h := by
    cases h
    exact ⟨Contracts.freshId_notMem _ _, List.toFinset_cons⟩
  close h := Contracts.close_some h
  closeKeeper h := Contracts.close_some h
  approve h := by cases h; rfl
  swap h := by cases h; rfl

def ext : Contracts := ⟨100000, 1, []⟩

def run (l : List (Event Contracts)) : World Contracts := l.foldl (next externals) (World.start ledger config ext)

/-- Alice opens position 1. -/
def trading : Event Contracts := .call env (.executeCopyTrade ⟨alice, token, 5000, none⟩ .market none ⟨1, [1], 5000⟩)

/-- A cancellation of position 1 that says what the amount is. -/
def cancelling (amount : Int) : Event Contracts :=
  .call env (.cancelCopyTrade alice ⟨alice, 1, token, ⟨11⟩, amount, 0, 0⟩ ⟨2, [2], 5000⟩)

/-- Position 1 has a stop loss above the price. -/
def stopping : List (Event Contracts) :=
  [trading, .call env (.setStopLossPrice alice 1 10), .call env (.checkAndTriggerStopLoss alice 1 7)]

/-- Bob has a plan of one interval. -/
def planning : List (Event Contracts) :=
  [.call env (.executeDCACopyTrade bob 3 5000 1 10 0), .call env (.executeDCAInterval bob 3)]

/-- The open interest is what is open, before and after. -/
theorem position_opened_and_closed : (run [trading]).store.openInterest token = 5000 ∧
    (run [trading, cancelling 5000]).store.openInterest token = 0 ∧
    Balanced positionsOf (run [trading, cancelling 5000]) := by
  have hfits : Fits (run [trading, cancelling 5000]).journal := by
    have hj : (run [trading, cancelling 5000]).journal = [.closed alice 1, .opened alice 1 (some (token, 5000))] := by
      decide +kernel
    rw [hj]
    refine ⟨fun t => ?_, fun user => ?_, fun t => ?_, fun user => ?_, trivial⟩
    · exact (by decide : (0 : Int) ≤ i128Max)
    · exact (by decide : 0 ≤ u32Max)
    · refine (interest_opened (s := ∅) (j := []) _ (Finset.notMem_empty _) t).trans_le ?_
      change 0 + (if token = t then (5000 : Int) else 0) ≤ i128Max
      split <;> decide
    · exact (Finset.card_filter_le _ _).trans (by decide)
  refine ⟨by decide +kernel, by decide +kernel, exposure_accounted faithful ledger config ext rfl ?_ hfits⟩
  refine Reaches.tail (Reaches.tail (Reaches.refl (World.start ledger config ext)) (i := trading)
    ⟨trivial, trivial, trivial, rfl⟩) (i := cancelling 5000) ⟨fun _ => ?_, trivial, trivial, rfl⟩
  exact (by decide +kernel : addedFor (alice, 1) (run [trading]).journal = some (token, 5000))

/-- A run of calls is a run. -/
theorem reaches_run {l : List (Event Contracts)} (h : Reaches.Along (next externals)
    (fun w ev => Undisturbed positionsOf w ev ∧ Allowed w ev) (World.start ledger config ext) l) :
    Reaches (fun a ev b => Undisturbed positionsOf a ev ∧ Step externals a ev b) (World.start ledger config ext)
      (run l) :=
  Reaches.of_along_and h

/-- A stop loss leaves the open interest of a position that is closed, an interval opens a position that is not
counted, and a cancellation takes off less than was added. -/
theorem counts_drift : Faithful externals positionsOf ∧ ∀ l ∈ [stopping, planning, [trading, cancelling 1000]],
    Reaches (fun a ev b => Undisturbed positionsOf a ev ∧ Step externals a ev b) (World.start ledger config ext)
      (run l) ∧ ¬ Balanced positionsOf (run l) := by
  refine ⟨faithful, ?_⟩
  simp
  refine ⟨⟨reaches_run ?_, fun h => ?_⟩, ⟨reaches_run ?_, fun h => ?_⟩, reaches_run ?_, fun h => ?_⟩
  · exact ⟨⟨trivial, trivial⟩, ⟨trivial, trivial⟩, ⟨trivial, trivial⟩, trivial⟩
  · exact absurd (h.interest token) (by decide +kernel)
  · exact ⟨⟨trivial, trivial⟩, ⟨trivial, trivial⟩, trivial⟩
  · exact absurd (h.count bob) (by decide +kernel)
  · exact ⟨⟨trivial, trivial⟩, ⟨trivial, trivial⟩, trivial⟩
  · exact absurd (h.interest token) (by decide +kernel)

end Sample

end CallStake.TradeExecutor
