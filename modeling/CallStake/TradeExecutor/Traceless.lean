import CallStake.Lib.Outcome
import CallStake.TradeExecutor.Alike

/-!
# Trades that fail without a trace

A trade of a batch or of the queue may fail by itself, and its error is caught. What it wrote before stays.

* `Accepted`, `Refused` and their parts: what decides on a trade, as predicates on the state before it.
* `ends_executeMarketCopyTrade`: a trade is executed iff it is accepted, and what a trade that fails leaves behind.
* `Traceless`: when that is nothing (`traceless_iff_unharmed`).
-/

namespace CallStake.TradeExecutor

open Tx

/-! ## What decides on a trade -/

section Predicates

variable {ξ : Type} (X : Externals ξ) (w : World ξ) (t : TradeInput)

def Sized : Prop := 0 < t.amount ∧ w.store.minTradeSize t.token ≤ t.amount

/-- The breaker was activated and has run out. -/
def Stale : Prop := w.store.exposure.circuitBreakerActive = true ∧
  breakerExpired w.ledger.sequence w.store.exposure.circuitBreakerLedger
  deriving Decidable

def Broken : Prop := w.store.exposure.circuitBreakerActive = true ∧
  ¬ breakerExpired w.ledger.sequence w.store.exposure.circuitBreakerLedger
  deriving Decidable

/-- After a look at the breaker, which resets one that has run out. -/
def World.afterBreaker : World ξ :=
  if Stale w then { w with
    store.exposure.circuitBreakerActive := false
    store.exposure.circuitBreakerLedger := none }
  else w

def OverInterest : Prop := 0 < w.store.config.maxOpenInterestPerPair ∧
  w.store.config.maxOpenInterestPerPair < (checkedAdd (w.store.openInterest t.token) t.amount).getD i128Max

/-- The day on which the trade counts. -/
def World.today : Nat := dayOf w.ledger.timestamp

/-- The volume of the user on that day, with the trade. -/
def volumeWith : Int := w.store.newVolume w.today t.user t.amount

def OverVolume : Prop := 0 < w.store.config.dailyVolumeLimit ∧ w.store.config.dailyVolumeLimit < volumeWith w t

/-- The volume of the trade is recorded. -/
def charged : World ξ :=
  if 0 < w.store.config.dailyVolumeLimit then { w with
    store.exposure.dailyVolume := w.store.exposure.dailyVolume.insert t.user (volumeWith w t)
    store.exposure.dailyVolumeDay := w.store.exposure.dailyVolumeDay.insert t.user w.today }
  else w

def effectiveAmount : Int :=
  match t.portfolioPctBps with
  | none => t.amount
  | some pct =>
    if w.store.config.oracle = none then t.amount
    else percentOf ((X.balance t.token t.user w.ext).getD 0) pct t.amount

/-- The balance covers neither the amount with the fee nor the amount alone. -/
def Short : Prop := ∃ available ∈ X.balance t.token t.user w.ext,
  (shortfall available (effectiveAmount X w t) w.store.config.copyTradeEstimatedFee).isSome ∧
    (shortfall available (effectiveAmount X w t) 0).isSome

/-- The portfolio does not record the position. -/
def Declined : Prop := ∃ portfolio ∈ w.store.config.userPortfolio,
  X.validateAndRecord portfolio t.user (maxPositions (w.store.exempt t.user)) w.ext = none

/-- The trade fails after its volume was recorded. -/
def Refused : Prop :=
  w.store.config.userPortfolio = none ∨
  (w.store.exempt t.user = false ∧ w.store.config.maxOpenPositions ≤ w.store.userPositionCount t.user) ∨
  (∃ pct ∈ t.portfolioPctBps, MAX_POSITION_PCT_BPS < pct) ∨ Short X w t ∨ Declined X w t

/-- The trade fails after the breaker was looked at, and before its volume was recorded. -/
def Stopped : Prop := OverInterest w t ∨ w.locked = true ∨ OverVolume w t

def Accepted : Prop := Sized w t ∧ ¬ Broken w ∧ ¬ Stopped w t ∧ ¬ Refused X w t

instance : Decidable (Stopped w t) := inferInstanceAs (Decidable ((_ ∧ _) ∨ _ ∨ (_ ∧ _)))

instance : Decidable (Refused X w t) :=
  inferInstanceAs (Decidable (_ ∨ _ ∨ (∃ pct ∈ t.portfolioPctBps, MAX_POSITION_PCT_BPS < pct) ∨
    (∃ available ∈ X.balance t.token t.user w.ext, _ ∧ _) ∨ (∃ portfolio ∈ w.store.config.userPortfolio, _)))

instance : Decidable (Accepted X w t) := inferInstanceAs (Decidable ((_ ∧ _) ∧ ¬ Broken w ∧ _ ∧ ¬ Refused X w t))

end Predicates

section Trade

variable {ξ : Type} (X : Externals ξ) {w w' : World ξ} (t : TradeInput)

/-! ## The breaker -/

theorem marketCircuitBreakerActive_run (w : World ξ) :
    marketCircuitBreakerActive w = (.ok (decide (Broken w)), w.afterBreaker) := by
  unfold marketCircuitBreakerActive
  change (if w.store.exposure.circuitBreakerActive = true then activatedBreaker else pure false) w = _
  split
  · rename_i hactive
    change (Tx.when (breakerExpired w.ledger.sequence w.store.exposure.circuitBreakerLedger) resetCircuitBreaker
      >>= fun _ => pure (decide (¬ breakerExpired w.ledger.sequence w.store.exposure.circuitBreakerLedger))) w = _
    by_cases hexpired : breakerExpired w.ledger.sequence w.store.exposure.circuitBreakerLedger
    · have hstale : Stale w := ⟨hactive, hexpired⟩
      have hnot : ¬ Broken w := fun h => h.2 hexpired
      rw [Tx.when, if_pos hexpired, World.afterBreaker, if_pos hstale, decide_eq_false hnot,
        decide_eq_false (not_not.mpr hexpired)]
      rfl
    · have hstale : ¬ Stale w := fun h => hexpired h.2
      have hon : Broken w := ⟨hactive, hexpired⟩
      rw [Tx.when, if_neg hexpired, World.afterBreaker, if_neg hstale, decide_eq_true hon, decide_eq_true hexpired]
      rfl
  · rename_i hactive
    have hstale : ¬ Stale w := fun h => hactive h.1
    have hnot : ¬ Broken w := fun h => hactive h.1
    rw [World.afterBreaker, if_neg hstale, decide_eq_false hnot]
    rfl

theorem afterBreaker_of_not_stale (h : ¬ Stale w) : w.afterBreaker = w := if_neg h

theorem afterBreaker_of_broken (h : Broken w) : w.afterBreaker = w := afterBreaker_of_not_stale fun hs => h.2 hs.2

theorem not_stale_afterBreaker (w : World ξ) : ¬ Stale w.afterBreaker := by
  unfold World.afterBreaker
  split
  · exact fun h => Bool.false_ne_true h.1
  · assumption

theorem broken_afterBreaker (w : World ξ) : Broken w.afterBreaker ↔ Broken w := by
  by_cases hb : Broken w
  · rw [afterBreaker_of_broken hb]
  · by_cases hs : Stale w
    · rw [World.afterBreaker, if_pos hs]
      exact iff_of_false (fun h => Bool.false_ne_true h.1) hb
    · rw [afterBreaker_of_not_stale hs]

/-! Nothing else that decides on a trade depends on the breaker. -/

theorem stopped_afterBreaker (w : World ξ) : Stopped w.afterBreaker t ↔ Stopped w t := by
  unfold World.afterBreaker
  split
  · exact Iff.rfl
  · exact Iff.rfl

theorem refused_afterBreaker (w : World ξ) : Refused X w.afterBreaker t ↔ Refused X w t := by
  unfold World.afterBreaker
  split
  · exact Iff.rfl
  · exact Iff.rfl

/-- A breaker that has run out is not alike after it was reset. -/
theorem alike_afterBreaker : Alike w w.afterBreaker ↔ ¬ Stale w := by
  constructor
  · intro h hstale
    have hactive := h.exposure.circuitBreakerActive
    rw [hstale.1, World.afterBreaker, if_pos hstale] at hactive
    exact Bool.false_ne_true hactive
  · intro h
    rw [afterBreaker_of_not_stale h]
    exact .refl w

/-! ## The volume -/

theorem refused_charged (w : World ξ) : Refused X (charged w t) t ↔ Refused X w t := by
  unfold charged
  split
  · exact Iff.rfl
  · exact Iff.rfl

/-- The volume is recorded as it was. -/
def VolumeKept (w : World ξ) (t : TradeInput) : Prop :=
  w.store.exposure.dailyVolume.lookup t.user = some (volumeWith w t) ∧
    w.store.exposure.dailyVolumeDay.lookup t.user = some w.today

theorem alike_charged : Alike w (charged w t) ↔ (0 < w.store.config.dailyVolumeLimit → VolumeKept w t) := by
  unfold charged
  split
  · rename_i hlimit
    constructor
    · intro h _
      have hvolume := h.exposure.dailyVolume t.user
      have hday := h.exposure.dailyVolumeDay t.user
      exact ⟨hvolume.symm.trans (AList.lookup_insert _), hday.symm.trans (AList.lookup_insert _)⟩
    · intro h
      refine ⟨rfl, rfl, ⟨rfl, rfl, fun user => ?_, fun user => ?_, rfl, rfl⟩, rfl, rfl, rfl, rfl, rfl, rfl, rfl⟩
      · by_cases hu : user = t.user
        · subst hu
          exact (AList.lookup_insert _).trans (h hlimit).1.symm
        · exact AList.lookup_insert_ne hu
      · by_cases hu : user = t.user
        · subst hu
          exact (AList.lookup_insert _).trans (h hlimit).2.symm
        · exact AList.lookup_insert_ne hu
  · rename_i hlimit
    exact ⟨fun _ h => absurd h hlimit, fun _ => .refl w⟩

theorem ends_checkDailyVolume {Q : Unit → World ξ → Prop} {E : ContractError → World ξ → Prop}
    (hover : OverVolume w t → E .dailyVolumeLimitExceeded w) (h : ¬ OverVolume w t → Q () (charged w t)) :
    Ends (checkDailyVolume w.store.config.dailyVolumeLimit t.user t.amount) Q E w := by
  refine ends_when (fun hlimit => ?_) fun hlimit => ?_
  · refine ends_bind (ends_gets (ends_bind (ends_gets (ends_bind (ends_failIf (fun ho => hover ⟨hlimit, ho⟩)
      fun ho => ?_)))))
    have hcharged := h fun hv => ho hv.2
    rw [charged, if_pos hlimit] at hcharged
    exact hcharged
  · have hcharged := h fun hv => hlimit hv.1
    rw [charged, if_neg hlimit] at hcharged
    exact hcharged

/-! ## The gates -/

theorem ends_view {α : Type} {f : ξ → Option α} {Q : α → World ξ → Prop} {E : ContractError → World ξ → Prop}
    (h : ∀ a, f w.ext = some a → Q a w) : Ends (view f) Q E w := by
  unfold Ends view
  cases hf : f w.ext with
  | none => trivial
  | some a => exact h a hf

theorem ends_resolveTradeAmount {Q : Int → World ξ → Prop} {E : ContractError → World ξ → Prop}
    (hpct : (∃ pct ∈ t.portfolioPctBps, MAX_POSITION_PCT_BPS < pct) → E .positionPctTooHigh w)
    (h : (¬ ∃ pct ∈ t.portfolioPctBps, MAX_POSITION_PCT_BPS < pct) → Q (effectiveAmount X w t) w) :
    Ends (resolveTradeAmount X t.user t.token t.amount t.portfolioPctBps) Q E w := by
  unfold effectiveAmount at h
  cases hbps : t.portfolioPctBps with
  | none =>
    rw [hbps] at h
    exact ends_pure (h nofun)
  | some pct =>
    rw [hbps] at h hpct
    refine ends_bind (ends_failIf (fun hover => hpct ⟨pct, rfl, hover⟩) fun hover => ends_bind (ends_gets ?_))
    have hvalue := h fun ⟨p, hp, hlt⟩ => hover (by cases hp; exact hlt)
    dsimp only at hvalue
    by_cases horacle : w.store.config.oracle = none
    · rw [if_pos horacle] at hvalue ⊢
      exact ends_pure hvalue
    · rw [if_neg horacle] at hvalue ⊢
      refine ends_bind (ends_view fun balance hbalance => ends_pure ?_)
      rw [hbalance] at hvalue
      exact hvalue

/-- The state differs in the last shortfall of the user alone. -/
def Noted (w w' : World ξ) : Prop := ∃ d, w' = { w with store.exposure.lastInsufficientBalance := d }

theorem Noted.alike (h : Noted w w') : Alike w w' := by
  obtain ⟨d, rfl⟩ := h
  exact ⟨rfl, rfl, ⟨rfl, rfl, fun _ => rfl, fun _ => rfl, rfl, rfl⟩, rfl, rfl, rfl, rfl, rfl, rfl, rfl⟩

theorem ends_checkBalance {Q : Bool → World ξ → Prop} {E : ContractError → World ξ → Prop}
    (hshort : ∀ w', Noted w w' → Short X w t → E .insufficientBalance w')
    (h : ∀ b w', Noted w w' → ¬ Short X w t → Q b w') :
    Ends (checkBalance X t.user t.token (effectiveAmount X w t) w.store.config.copyTradeEstimatedFee) Q E w := by
  refine ends_bind (ends_bind (ends_view fun available hbalance => ends_pure ?_))
  have hiff : Short X w t ↔ (shortfall available (effectiveAmount X w t)
      w.store.config.copyTradeEstimatedFee).isSome ∧ (shortfall available (effectiveAmount X w t) 0).isSome := by
    unfold Short
    simp [hbalance]
  cases hfee : shortfall available (effectiveAmount X w t) w.store.config.copyTradeEstimatedFee with
  | none =>
    refine ends_bind (ends_modify (ends_pure (h _ _ ⟨_, rfl⟩ fun hs => ?_)))
    rw [hiff, hfee] at hs
    exact Bool.false_ne_true hs.1
  | some detail =>
    refine ends_bind (ends_bind (ends_view fun available' hbalance' => ends_pure ?_))
    obtain rfl : available = available' := Option.some.inj (hbalance.symm.trans hbalance')
    refine ends_ite (fun hnone => ?_) fun hsome => ?_
    · refine ends_bind (ends_modify (ends_pure (h _ _ ⟨_, rfl⟩ fun hs => ?_)))
      rw [hiff, hnone] at hs
      exact Bool.false_ne_true hs.2
    · refine ends_bind (ends_modify (ends_fail (hshort _ ⟨_, rfl⟩ (hiff.mpr ⟨?_, ?_⟩))))
      · rw [hfee]
        rfl
      · exact Option.isSome_iff_ne_none.mpr hsome

/-! ## The position and the receipt -/

theorem ends_recordTrade {Q : Unit → World ξ → Prop} {E : ContractError → World ξ → Prop} (amount : Int)
    (h : ∀ w', Q () w') : Ends (recordTrade t amount) Q E w := h _

theorem ends_openPosition {Q : Unit → World ξ → Prop} {E : ContractError → World ξ → Prop}
    (portfolio : Address) (exempt : Bool)
    (hnone : X.validateAndRecord portfolio t.user (maxPositions exempt) w.ext = none → E .positionLimitReached w)
    (h : X.validateAndRecord portfolio t.user (maxPositions exempt) w.ext ≠ none → ∀ w', Q () w') :
    Ends (openPosition X portfolio t exempt) Q E w := by
  refine ends_bind ?_
  unfold Ends validateAndRecordPosition
  cases hrecord : X.validateAndRecord portfolio t.user (maxPositions exempt) w.ext with
  | none => exact hnone hrecord
  | some => exact h (by rw [hrecord]; nofun) _

theorem ends_settleTrade (w : World ξ) :
    Ends (settleTrade X t none) (fun _ _ => ¬ Refused X w t) (fun _ w' => Refused X w t ∧ Alike w w') w := by
  refine ends_bind (ends_bind (ends_gets (ends_ofOption (fun hnone => ⟨.inl hnone, .refl w⟩) fun portfolio hp => ?_)))
  refine ends_bind (ends_gets (ends_bind (ends_gets (ends_bind (ends_bind ?_)))))
  refine ends_bind (ends_gets (ends_bind (ends_gets (ends_failIf (fun hcap => ⟨.inr (.inl hcap), .refl w⟩)
    fun hcap => ends_bind ?_))))
  refine ends_resolveTradeAmount X t (fun hpct => ⟨.inr (.inr (.inl hpct)), .refl w⟩) fun hpct => ends_bind ?_
  refine ends_checkBalance X t (fun w' hw hshort => ⟨.inr (.inr (.inr (.inl hshort))), hw.alike⟩)
    fun fallback w₁ hw hshort => ends_pure ?_
  have hext : w₁.ext = w.ext := hw.alike.ext
  refine ends_bind (ends_openPosition X t portfolio _ (fun hnone => ?_) fun hsome w₂ => ?_)
  · rw [hext] at hnone
    exact ⟨.inr (.inr (.inr (.inr ⟨portfolio, hp, hnone⟩))), hw.alike⟩
  · rw [hext] at hsome
    have hnot : ¬ Refused X w t := by
      rintro (hnone | h | h | h | ⟨p, hp', hnone⟩)
      · cases hnone.symm.trans hp
      · exact hcap h
      · exact hpct h
      · exact hshort h
      · cases hp.symm.trans hp'
        exact hsome hnone
    exact ends_bind (ends_when (fun _ => ends_modify (ends_recordTrade t _ fun _ => hnot))
      fun _ => ends_recordTrade t _ fun _ => hnot)

/-! ## The trade -/

theorem ends_withLock {α : Type} {x : T ξ α} {Q : α → World ξ → Prop} {E : ContractError → World ξ → Prop}
    (h : Ends x (fun a w' => Q a { w' with locked := false }) (fun e w' => E e { w' with locked := false })
      { w with locked := true }) : Ends (withLock x) Q E w := by
  unfold Ends withLock at *
  rcases hx : x { w with locked := true } with ⟨(e | _) | a, w'⟩ <;> rw [hx] at h <;> exact h

theorem charged_locked (h : w.locked = false) :
    ({ charged { w with locked := true } t with locked := false } : World ξ) = charged w t := by
  obtain ⟨ledger, store, ext, locked, journal⟩ := w
  cases h
  unfold charged
  split <;> rfl

theorem refused_charged_locked (w : World ξ) :
    Refused X (charged { w with locked := true } t) t ↔ Refused X w t := refused_charged X t _

/-- What is left behind by a trade that fails. -/
inductive Left (X : Externals ξ) (t : TradeInput) (w : World ξ) : World ξ → Prop
  | early (h : Sized w t → Broken w) : Left X t w w
  | stopped (hsized : Sized w t) (hbreaker : ¬ Broken w) (h : Stopped w t) : Left X t w w.afterBreaker
  | refused {w' : World ξ} (hsized : Sized w t) (hbreaker : ¬ Broken w) (hstop : ¬ Stopped w t)
      (h : Refused X w t) (ha : Alike (charged w.afterBreaker t) w') : Left X t w w'

theorem Left.not_accepted (h : Left X t w w') : ¬ Accepted X w t := by
  rintro ⟨hs, hb, hstop, hr⟩
  cases h with
  | early h => exact hb (h hs)
  | stopped _ _ h => exact hstop h
  | refused _ _ _ h => exact hr h

theorem ends_executeMarketCopyTrade (w : World ξ) :
    Ends (executeMarketCopyTrade X t none) (fun _ _ => Accepted X w t) (fun _ w' => Left X t w w') w := by
  refine ends_bind (ends_bind (ends_failIf (fun h => .early fun hs => absurd hs.1 (Int.not_lt.mpr h)) fun hamount =>
    ends_bind (ends_gets (ends_bind (ends_failIf (fun h => .early fun hs => absurd hs.2 (Int.not_le.mpr h))
      fun hminimum => ends_bind ?_)))))
  have hsized : Sized w t := ⟨Int.not_le.mp hamount, Int.not_lt.mp hminimum⟩
  change Ends marketCircuitBreakerActive _ _ w
  unfold Ends
  rw [marketCircuitBreakerActive_run]
  have hstopped := stopped_afterBreaker t w
  have hrefused := refused_afterBreaker X t w
  -- what follows depends on the breaker no more
  have hleft : Stopped w.afterBreaker t → ¬ Broken w → Left X t w w.afterBreaker :=
    fun h hb => .stopped hsized hb (hstopped.mp h)
  refine ends_bind (ends_failIf (fun hb => ?_) fun hb => ?_)
  · have hbroken := of_decide_eq_true hb
    rw [afterBreaker_of_broken hbroken]
    exact .early fun _ => hbroken
  replace hb : ¬ Broken w := fun h => hb (decide_eq_true h)
  generalize hv : w.afterBreaker = v at *
  refine ends_bind (ends_bind (ends_gets (ends_bind (ends_gets (ends_failIf (fun h => hleft (.inl h) hb)
    fun hinterest => ends_bind (ends_gets (ends_failIf (fun h => hleft (.inr (.inl h)) hb) fun hlocked => ?_)))))))
  replace hlocked : v.locked = false := Bool.eq_false_iff.mpr hlocked
  refine ends_withLock (ends_bind (ends_gets (ends_bind (ends_checkDailyVolume t (fun hvolume => ?_)
    fun hvolume => ?_))))
  · have hsame : ({ v with locked := false } : World ξ) = v := by
      obtain ⟨ledger, store, ext, locked, journal⟩ := v
      cases hlocked
      rfl
    change Left X t w { v with locked := false }
    rw [hsame]
    exact hleft (.inr (.inr hvolume)) hb
  · have hstop : ¬ Stopped w t := by
      rw [← hstopped]
      rintro (h | h | h)
      · exact hinterest h
      · rw [hlocked] at h
        cases h
      · exact hvolume h
    refine (ends_settleTrade X t _).mono (fun _ _ h => ⟨hsized, hb, hstop, fun hr => h ?_⟩) fun _ w' h => ?_
    · exact (refused_charged_locked X t v).mpr (hrefused.mpr hr)
    · have halike := h.2.setLocked false
      rw [charged_locked t hlocked, ← hv] at halike
      exact .refused hsized hb hstop (hrefused.mp ((refused_charged_locked X t v).mp h.1)) halike

/-! ## Without a trace -/

/-- No error of the computation leaves a trace. -/
def Unharmed (x : T ξ Unit) (w : World ξ) : Prop := ∀ e w', x w = (.error (.err e), w') → Alike w w'

/-- A trade that fails is not the one that resets the breaker, and its volume was not recorded, or is as it was. -/
structure Traceless (X : Externals ξ) (w : World ξ) (t : TradeInput) : Prop where
  breaker : Sized w t → Stale w → ¬ Stopped w t ∧ ¬ Refused X w t
  volume : Sized w t → ¬ Broken w → ¬ Stopped w t → Refused X w t → 0 < w.store.config.dailyVolumeLimit →
    VolumeKept w t

theorem traceless_of_accepted (h : Accepted X w t) : Traceless X w t :=
  ⟨fun _ _ => ⟨h.2.2.1, h.2.2.2⟩, fun _ _ _ hr => absurd hr h.2.2.2⟩

theorem Left.alike_iff (h : Left X t w w') : Alike w w' ↔ Traceless X w t := by
  cases h with
  | early h =>
    refine iff_of_true (.refl w) ⟨fun hs hstale => absurd hstale.2 (h hs).2, fun hs hb => absurd (h hs) hb⟩
  | stopped hs _ h =>
    rw [alike_afterBreaker]
    exact ⟨fun hstale => ⟨fun _ hst => absurd hst hstale, fun _ _ hnot => absurd h hnot⟩,
      fun hT hstale => (hT.breaker hs hstale).1 h⟩
  | refused hs hb hstop h ha =>
    constructor
    · intro hw
      have hcharged : Alike w (charged w.afterBreaker t) := hw.trans ha.symm
      have hstale : ¬ Stale w := by
        intro hstale
        have hactive := hcharged.exposure.circuitBreakerActive
        have hfalse : (charged w.afterBreaker t).store.exposure.circuitBreakerActive = false := by
          unfold charged World.afterBreaker
          rw [if_pos hstale]
          split <;> rfl
        rw [hfalse, hstale.1] at hactive
        exact Bool.false_ne_true hactive
      rw [afterBreaker_of_not_stale hstale, alike_charged] at hcharged
      exact ⟨fun _ hst => absurd hst hstale, fun _ _ _ _ => hcharged⟩
    · intro hT
      have hstale : ¬ Stale w := fun hst => (hT.breaker hs hst).2 h
      rw [afterBreaker_of_not_stale hstale] at ha
      exact ((alike_charged t).mpr (hT.volume hs hb hstop h)).trans ha

/-- A trade that does not trap leaves no trace when it fails iff it is traceless. -/
theorem traceless_iff_unharmed (htrap : ∀ w', executeMarketCopyTrade X t none w ≠ (.error .panic, w')) :
    Unharmed (executeMarketCopyTrade X t none) w ↔ Traceless X w t := by
  have hends := ends_executeMarketCopyTrade X t w
  rcases hr : executeMarketCopyTrade X t none w with ⟨(e | _) | u, w'⟩
  · have hleft := hends.of_error hr
    rw [← hleft.alike_iff]
    constructor
    · exact fun h => h e w' hr
    · intro h e' w'' hr'
      cases hr.symm.trans hr'
      exact h
  · exact absurd hr (htrap w')
  · refine iff_of_true (fun e w'' hr' => ?_) (traceless_of_accepted X t (hends.of_ok hr))
    cases hr.symm.trans hr'

end Trade

end CallStake.TradeExecutor
