import CallStake.Governance.Conservation

/-!
# Vesting

A schedule vests along a curve: nothing before the cliff, everything at the end, and a straight line between.
A release pays what is vested and was not paid yet, whenever it is called.

* `VestingSchedule.vested`: the curve, over unbounded integers. `releasableAmount_iff`: the code computes it
  where the product of the total and the time since the cliff fits.
* `Fits`: a release would return. `releases_paid`: what the releases of a list of ledgers pay.
* `Docket.Vests`: the stored schedules are valid and have released no more than what is vested.
  `Docket.Vests.of_reaches`: so it is in every state.
* `path_independent_iff`: how much is released by a time does not depend on the calls before it exactly when
  the release at that time fits, or everything vested is paid.
-/

namespace CallStake.Governance

namespace VestingSchedule

/-! ## The curve -/

/-- When the cliff ends. -/
def cliffTime (v : VestingSchedule) : Nat := u64Add v.startTime v.cliffSeconds

/-- Everything is vested. -/
def Ended (v : VestingSchedule) (t : Nat) : Prop :=
  u64Add v.startTime v.durationSeconds ≤ t ∨ v.durationSeconds = v.cliffSeconds
  deriving Decidable

/-- The time since the cliff. -/
def elapsed (v : VestingSchedule) (t : Nat) : Nat := t - v.cliffTime

/-- The time from the cliff to the end. -/
def window (v : VestingSchedule) : Nat := v.durationSeconds - v.cliffSeconds

/-- The vested amount at a time. -/
def vested (v : VestingSchedule) (t : Nat) : Int :=
  if t < v.cliffTime then 0
  else if v.Ended t then v.totalAmount
  else v.totalAmount * v.elapsed t / v.window

/-- What `create_vesting_schedule` asks for. -/
structure Valid (v : VestingSchedule) : Prop where
  positive : 0 < v.totalAmount
  lasts : 0 < v.durationSeconds
  ordered : v.cliffSeconds ≤ v.durationSeconds

section Curve

variable {v : VestingSchedule} {t t' : Nat}

/-- Before the end, less time has passed since the cliff than there is. -/
theorem elapsed_le (hcliff : ¬ t < v.cliffTime) (hend : ¬ v.Ended t) : v.elapsed t ≤ v.window := by
  simp only [Ended, cliffTime, elapsed, window, u64Add] at *
  omega

theorem window_pos (hv : v.Valid) (hend : ¬ v.Ended t) : 0 < v.window := by
  have := hv.ordered
  simp only [Ended, window] at *
  omega

theorem ended_mono (h : t ≤ t') (hend : v.Ended t) : v.Ended t' := hend.imp (fun hle => hle.trans h) id

theorem vested_of_before (h : t < v.cliffTime) : v.vested t = 0 := if_pos h

theorem vested_of_ended (hcliff : ¬ t < v.cliffTime) (hend : v.Ended t) : v.vested t = v.totalAmount := by
  rw [vested, if_neg hcliff, if_pos hend]

theorem vested_of_between (hcliff : ¬ t < v.cliffTime) (hend : ¬ v.Ended t) :
    v.vested t = v.totalAmount * v.elapsed t / v.window := by
  rw [vested, if_neg hcliff, if_neg hend]

theorem vested_nonneg (hv : v.Valid) : 0 ≤ v.vested t := by
  have htotal := Int.le_of_lt hv.positive
  unfold vested
  split
  · exact Int.le_refl 0
  · split
    · exact htotal
    · exact Int.ediv_nonneg (Int.mul_nonneg htotal (Int.natCast_nonneg _)) (Int.natCast_nonneg _)

theorem vested_le_total (hv : v.Valid) : v.vested t ≤ v.totalAmount := by
  have htotal := Int.le_of_lt hv.positive
  unfold vested
  split
  · exact htotal
  · split
    · exact Int.le_refl _
    · rename_i hcliff hend
      have hwindow : (0 : Int) < v.window := Int.natCast_pos.mpr (window_pos hv hend)
      refine Int.ediv_le_of_le_mul hwindow ?_
      exact Int.mul_le_mul_of_nonneg_left (Int.ofNat_le.mpr (elapsed_le hcliff hend)) htotal

/-- The curve never falls. -/
theorem vested_mono (hv : v.Valid) (h : t ≤ t') : v.vested t ≤ v.vested t' := by
  by_cases hcliff : t < v.cliffTime
  · rw [vested_of_before hcliff]
    exact vested_nonneg hv
  · have hcliff' : ¬ t' < v.cliffTime := fun hlt => hcliff (Nat.lt_of_le_of_lt h hlt)
    by_cases hend' : v.Ended t'
    · rw [vested_of_ended hcliff' hend']
      exact vested_le_total hv
    · have hend : ¬ v.Ended t := fun he => hend' (ended_mono h he)
      rw [vested_of_between hcliff hend, vested_of_between hcliff' hend']
      refine Int.ediv_le_ediv (Int.natCast_pos.mpr (window_pos hv hend)) ?_
      refine Int.mul_le_mul_of_nonneg_left ?_ (Int.le_of_lt hv.positive)
      exact Int.ofNat_le.mpr (Nat.sub_le_sub_right h _)

end Curve

end VestingSchedule

/-! ## One release -/

/-- The vested amount is in reach of the arithmetic. -/
def VestingSchedule.Computes (v : VestingSchedule) (t : Nat) : Prop :=
  (v.Ended t ∨ v.totalAmount * v.elapsed t ≤ i128Max) ∧ v.vested t ≤ i128Max

instance (v : VestingSchedule) (t : Nat) : Decidable (v.Computes t) := inferInstanceAs (Decidable (_ ∧ _))

section Release

variable {w w' : World} {v : VestingSchedule} {t : Nat} {n : Int} {auth : Auth} {b : Address}

/-- The quotient of a product that fits. -/
theorem checkedDivR_iff {x y : Int} (hx : 0 ≤ x) (hmax : x ≤ i128Max) (hy : 0 < y) :
    checkedDivR x y = .ok n ↔ x / y = n := by
  have hle : x / y ≤ x := Int.ediv_le_self y hx
  have hnonneg : 0 ≤ x / y := Int.ediv_nonneg hx (Int.le_of_lt hy)
  have hmin : i128Min ≤ x / y := by
    unfold i128Min
    omega
  rw [checkedDivR, if_neg (by omega), Res.ofOption_ok, Int.tdiv_eq_ediv_of_nonneg hx, checked_eq_some]
  exact ⟨fun h => h.2.2, fun h => ⟨hmin, hle.trans hmax, h⟩⟩

/-- The code computes the curve, less what was released. -/
theorem releasableAmount_iff (hv : v.Valid) (hcliff : ¬ t < v.cliffTime)
    (hreleased : v.releasedAmount ≤ v.vested t) :
    releasableAmount v t = .ok n ↔ (v.Ended t ∨ v.totalAmount * v.elapsed t ≤ i128Max) ∧
      v.vested t - v.releasedAmount ≤ i128Max ∧ v.vested t - v.releasedAmount = n := by
  have hcliff' : ¬ t < u64Add v.startTime v.cliffSeconds := hcliff
  have hmin : i128Min ≤ v.vested t - v.releasedAmount := by
    unfold i128Min
    omega
  unfold releasableAmount
  simp only [if_neg hcliff']
  by_cases hend : v.Ended t
  · have hend' : u64Add v.startTime v.durationSeconds ≤ t ∨ v.durationSeconds = v.cliffSeconds := hend
    rw [VestingSchedule.vested_of_ended hcliff hend] at hmin ⊢
    simp only [if_pos hend', Res.bind_ok, checkedSubR_ok, hend, true_or, true_and]
    constructor
    · rintro ⟨_, htotal, -, hmax, rfl⟩
      cases htotal
      exact ⟨hmax, rfl⟩
    · rintro ⟨hmax, rfl⟩
      exact ⟨_, rfl, hmin, hmax, rfl⟩
  · have hend' : ¬ (u64Add v.startTime v.durationSeconds ≤ t ∨ v.durationSeconds = v.cliffSeconds) := hend
    have hproduct : 0 ≤ v.totalAmount * v.elapsed t :=
      Int.mul_nonneg (Int.le_of_lt hv.positive) (Int.natCast_nonneg _)
    have hwindow : (0 : Int) < v.window := Int.natCast_pos.mpr (VestingSchedule.window_pos hv hend)
    rw [VestingSchedule.vested_of_between hcliff hend] at hmin ⊢
    simp only [if_neg hend', Res.bind_ok, checkedMulR_ok, checkedSubR_ok, hend, false_or]
    constructor
    · rintro ⟨_, ⟨-, hfits, rfl⟩, _, hdiv, -, hmax, rfl⟩
      obtain rfl := (checkedDivR_iff hproduct hfits hwindow).mp hdiv
      exact ⟨hfits, hmax, rfl⟩
    · rintro ⟨hfits, hmax, rfl⟩
      have hlow : i128Min ≤ v.totalAmount * v.elapsed t := by
        unfold i128Min
        omega
      exact ⟨_, ⟨hlow, hfits, rfl⟩, _, (checkedDivR_iff hproduct hfits hwindow).mpr rfl, hmin, hmax, rfl⟩

/-- The schedule of `b` with another released amount. -/
def VestingSchedule.paid (v : VestingSchedule) (n : Int) : VestingSchedule := { v with releasedAmount := n }

/-- `b` is paid up to `n` of its schedule. -/
def World.payVested (w : World) (b : Address) (v : VestingSchedule) (n : Int) : World :=
  ({ w with store.token.vestingSchedules := w.store.token.vestingSchedules.insert b (v.paid n) } :
    World).setBalance b (balanceOf w.store.token b + (n - v.releasedAmount))

/-- A release of what is vested at `t` would return. -/
structure Fits (w : World) (b : Address) (v : VestingSchedule) (t : Nat) : Prop where
  initialized : w.store.core.initialized = true
  computes : v.Computes t
  room : InRange (balanceOf w.store.token b + (v.vested t - v.releasedAmount))

/-- A release pays everything that is vested. -/
theorem releaseVestedTokens_iff (hv : v.Valid) (hsome : w.store.token.vestingSchedules.lookup b = some v)
    (hauth : auth b = true) (hreleased : 0 ≤ v.releasedAmount)
    (hle : v.releasedAmount ≤ v.vested w.ledger.timestamp) :
    releaseVestedTokens auth b w = (.ok n, w') ↔
      Fits w b v w.ledger.timestamp ∧ v.vested w.ledger.timestamp - v.releasedAmount = n ∧ 0 < n ∧
        w.payVested b v (v.vested w.ledger.timestamp) = w' := by
  simp only [releaseVestedTokens, Tx.bind_ok, requireInitialized_ok, requireAuth_ok, hauth, load_ok,
    Tx.ofOption_ok, hsome, timestamp_ok, Tx.failIf_ok, lift_ok, ExceptT.stM_eq, checkedAddR_ok, save_ok,
    addBalance_ok, Tx.pure_ok, ↓existsAndEq, true_and, exists_const, exists_eq_left',
    Option.some.injEq, not_le, and_assoc, exists_and_left]
  have hb (n : Int) : v.vested w.ledger.timestamp - v.releasedAmount = n →
      v.releasedAmount + n = v.vested w.ledger.timestamp := by omega
  constructor
  · rintro ⟨hi, hcliff, hn, hpos, -, hmax, -, hroom, rfl⟩
    obtain ⟨hproduct, -, rfl⟩ := (releasableAmount_iff hv hcliff hle).mp hn
    rw [hb _ rfl] at hmax
    refine ⟨⟨hi, ⟨hproduct, hmax⟩, hroom⟩, rfl, hpos, ?_⟩
    rw [hb _ rfl]
    rfl
  · rintro ⟨⟨hi, ⟨hproduct, hmax⟩, hroom⟩, rfl, hpos, rfl⟩
    have hcliff : ¬ w.ledger.timestamp < v.cliffTime := fun hlt => by
      rw [VestingSchedule.vested_of_before hlt] at hpos
      omega
    have hn := (releasableAmount_iff hv hcliff hle).mpr ⟨hproduct, by omega, rfl⟩
    refine ⟨hi, hcliff, hn, hpos, ?_, ?_, hpos, hroom, ?_⟩
    · unfold i128Min
      omega
    · rw [hb _ rfl]
      exact hmax
    · rw [hb _ rfl]
      rfl

/-! ## Releases one after another -/

/-- `b` asks for a release at a ledger. -/
def releaseAt (auth : Auth) (b : Address) (w : World) (ledger : Ledger) : World :=
  next (next w (.advance ledger)) (.call auth (.releaseVestedTokens b))

/-- The world after a list of releases. -/
def releases (auth : Auth) (b : Address) (w : World) (ledgers : List Ledger) : World :=
  ledgers.foldl (releaseAt auth b) w

/-- What `b` has been released of its schedule. -/
def releasedOf (w : World) (b : Address) : Int :=
  ((w.store.token.vestingSchedules.lookup b).map (·.releasedAmount)).getD 0

/-- The ledgers come one after another, and the last one is at `T`. -/
inductive Until (T : Nat) : Ledger → List Ledger → Prop
  | last {l l' : Ledger} (h : l.Before l') (hT : l'.timestamp = T) : Until T l [l']
  | more {l l' : Ledger} {ls : List Ledger} (h : l.Before l') (hs : Until T l' ls) : Until T l (l' :: ls)

/-- Everything vested at `t` is paid, or a release pays it. -/
def Settles (w : World) (b : Address) (v : VestingSchedule) (t : Nat) : Prop :=
  v.releasedAmount = v.vested t ∨ Fits w b v t

/-- `b` was paid up to `n` of its schedule since `w`. -/
structure Paid (w : World) (b : Address) (v : VestingSchedule) (n : Int) (w' : World) : Prop where
  stored : w'.store.token.vestingSchedules.lookup b = some (v.paid n)
  balance : balanceOf w'.store.token b = balanceOf w.store.token b + (n - v.releasedAmount)
  initialized : w'.store.core.initialized = w.store.core.initialized

theorem payVested_paid : Paid w b v n (w.payVested b v n) where
  stored := by
    simp only [World.payVested, World.setBalance, TokenStorage.setBalance, track_vestingSchedules]
    exact AList.lookup_insert _
  balance := by simp [World.payVested, World.setBalance, TokenStorage.setBalance, balanceOf]
  initialized := rfl

/-- A release pays the whole vested amount or nothing. -/
theorem releaseAt_paid {l : Ledger} (hv : v.Valid)
    (hsome : w.store.token.vestingSchedules.lookup b = some v) (hauth : auth b = true)
    (hreleased : 0 ≤ v.releasedAmount) (hle : v.releasedAmount ≤ v.vested l.timestamp) :
    (releaseAt auth b w l).ledger = l ∧
      (Fits w b v l.timestamp ∧ Paid w b v (v.vested l.timestamp) (releaseAt auth b w l) ∨
        (Settles w b v l.timestamp → v.releasedAmount = v.vested l.timestamp) ∧
          Paid w b v v.releasedAmount (releaseAt auth b w l)) := by
  have hiff (n : Int) (w' : World) : releaseVestedTokens auth b { w with ledger := l } = (.ok n, w') ↔ _ :=
    releaseVestedTokens_iff hv hsome hauth hreleased hle
  rcases hrun : releaseVestedTokens auth b { w with ledger := l } with ⟨e | n, w'⟩
  · have hinvoke : invoke auth (.releaseVestedTokens b) { w with ledger := l } = (.error e, w') := by
      simp [invoke, Tx.void, Tx.bind_error, hrun]
    have heq : releaseAt auth b w l = { w with ledger := l } := Tx.exec_of_error hinvoke
    rw [heq]
    refine ⟨rfl, .inr ⟨?_, hsome, (by omega : balanceOf w.store.token b =
      balanceOf w.store.token b + (v.releasedAmount - v.releasedAmount)), rfl⟩⟩
    rintro (hpaid | hfits)
    · exact hpaid
    · -- a release that fits fails where nothing is left
      by_contra hne
      have hrun' := (hiff _ _).mpr ⟨⟨hfits.initialized, hfits.computes, hfits.room⟩, rfl, by
        show 0 < v.vested l.timestamp - v.releasedAmount
        omega, rfl⟩
      rw [hrun] at hrun'
      cases hrun'
  · have hinvoke : invoke auth (.releaseVestedTokens b) { w with ledger := l } = (.ok (), w') :=
      Tx.void_ok.mpr ⟨n, hrun⟩
    have heq : releaseAt auth b w l = w' := Tx.exec_of_ok hinvoke
    obtain ⟨hfits, -, -, rfl⟩ := (hiff _ _).mp hrun
    have hpaid : Paid { w with ledger := l } b v (v.vested l.timestamp) _ := payVested_paid
    rw [heq]
    exact ⟨rfl, .inl ⟨⟨hfits.initialized, hfits.computes, hfits.room⟩, hpaid.stored, hpaid.balance,
      hpaid.initialized⟩⟩

theorem Paid.trans {w'' : World} {m : Int} (h : Paid w b v n w') (h' : Paid w' b (v.paid n) m w'') :
    Paid w b v m w'' where
  stored := h'.stored
  balance := by
    rw [h'.balance, h.balance]
    show _ + (n - v.releasedAmount) + (m - n) = _
    omega
  initialized := h'.initialized.trans h.initialized

/-- A later release settles after an earlier one, if it does without. -/
theorem Settles.after (hs : Settles w b v t) (hp : Paid w b v n w') (hreleased : v.releasedAmount ≤ n)
    (hle : n ≤ v.vested t) : Settles w' b (v.paid n) t := by
  rcases hs with hpaid | hfits
  · exact .inl (Int.le_antisymm hle (hpaid ▸ hreleased))
  · refine .inr ⟨hp.initialized.trans hfits.initialized, hfits.computes, ?_⟩
    have hroom : balanceOf w'.store.token b + (v.vested t - n) =
        balanceOf w.store.token b + (v.vested t - v.releasedAmount) := by
      rw [hp.balance]
      omega
    exact hroom ▸ hfits.room

/-- Releases pay no more than what is vested at the last one, and all of it where that one settles. -/
theorem releases_paid {ls : List Ledger} {T : Nat} (hs : Until T w.ledger ls) (hv : v.Valid)
    (hsome : w.store.token.vestingSchedules.lookup b = some v) (hauth : auth b = true)
    (hreleased : 0 ≤ v.releasedAmount) (hle : v.releasedAmount ≤ v.vested w.ledger.timestamp) :
    ∃ n, Paid w b v n (releases auth b w ls) ∧ v.releasedAmount ≤ n ∧ n ≤ v.vested T ∧
      (Settles w b v T → n = v.vested T) := by
  generalize hl : w.ledger = l at hs hle
  induction hs generalizing w v with
  | @last l l' h hT =>
    subst hT
    have hle' := hle.trans (VestingSchedule.vested_mono hv h.1)
    obtain ⟨-, ⟨-, hp⟩ | ⟨hsettled, hp⟩⟩ := releaseAt_paid hv hsome hauth hreleased hle'
    · exact ⟨_, hp, hle', Int.le_refl _, fun _ => rfl⟩
    · exact ⟨_, hp, Int.le_refl _, hle', hsettled⟩
  | @more l l' ls h hs ih =>
    have hle' := hle.trans (VestingSchedule.vested_mono hv h.1)
    -- the first release leaves the schedule paid up to some `m`
    obtain ⟨m, hp, hm, hm', hledger⟩ : ∃ m, Paid w b v m (releaseAt auth b w l') ∧ v.releasedAmount ≤ m ∧
        m ≤ v.vested l'.timestamp ∧ (releaseAt auth b w l').ledger = l' := by
      obtain ⟨hledger, ⟨-, hp⟩ | ⟨-, hp⟩⟩ := releaseAt_paid hv hsome hauth hreleased hle'
      · exact ⟨_, hp, hle', Int.le_refl _, hledger⟩
      · exact ⟨_, hp, Int.le_refl _, hle', hledger⟩
    have hvalid : (v.paid m).Valid := ⟨hv.positive, hv.lasts, hv.ordered⟩
    obtain ⟨n, hp', hn, hn', hsettled⟩ := ih hvalid hp.stored (hreleased.trans hm) hledger hm'
    refine ⟨n, hp.trans hp', hm.trans hn, hn', fun hsettles => hsettled ?_⟩
    exact hsettles.after hp hm (hn.trans hn')

theorem Paid.released (h : Paid w b v n w') : releasedOf w' b = n := by
  rw [releasedOf, h.stored]
  rfl

end Release

/-! ## Schedules in every state -/

/-- The schedules and the ledger are as they were. -/
structure SameSchedules (w w' : World) : Prop where
  ledger : w'.ledger = w.ledger
  schedules : w'.store.token.vestingSchedules = w.store.token.vestingSchedules

instance : IsPreorder World SameSchedules where
  refl _ := ⟨rfl, rfl⟩
  trans _ _ _ h h' := ⟨h'.ledger.trans h.ledger, h'.schedules.trans h.schedules⟩

-- the proofs that instance resolution builds grow with the length of a computation
set_option synthInstance.maxSize 1000000000

section SameSchedules

variable {holder : Address} {amount : Int}

instance (g : Storage → TokenStorage) [hg : Fact (∀ s, (g s).vestingSchedules = s.token.vestingSchedules)] :
    Tx.Within SameSchedules (save fun s => { s with token := g s }) where
  moves w := ⟨rfl, hg.out w.store⟩

instance : Fact (∀ s : Storage, s.token.vestingSchedules = s.token.vestingSchedules) := ⟨fun _ => rfl⟩

instance : Tx.Within SameSchedules (trackHolder holder) where
  moves _ := ⟨rfl, track_vestingSchedules _ _⟩

theorem setBalance_vestingSchedules (t : TokenStorage) :
    (t.setBalance holder amount).vestingSchedules = t.vestingSchedules := track_vestingSchedules _ _

instance : Fact (∀ s : Storage, (s.token.setBalance holder amount).vestingSchedules = s.token.vestingSchedules) :=
  ⟨fun _ => track_vestingSchedules _ _⟩

instance : Fact (∀ s : Storage, (s.token.setStaked holder amount).vestingSchedules = s.token.vestingSchedules) :=
  ⟨fun _ => track_vestingSchedules _ _⟩

instance : Tx.Within SameSchedules (addBalance holder amount) := by
  unfold addBalance
  infer_instance

end SameSchedules

/-- The schedule is valid, and has released something of what is vested. -/
structure VestingSchedule.OnCurve (v : VestingSchedule) (now : Nat) : Prop where
  valid : v.Valid
  nonneg : 0 ≤ v.releasedAmount
  le_vested : v.releasedAmount ≤ v.vested now

def Docket.Vests (d : Docket) : Prop := d.token.vestingSchedules.All (·.OnCurve d.now)

namespace Docket.Vests

variable {d d' : Docket} {w w' : World} {auth : Auth} {c : Call}

theorem of_eq (h : d.Vests) (hs : d'.token.vestingSchedules = d.token.vestingSchedules)
    (hnow : d.now ≤ d'.now) : d'.Vests := by
  intro b v hv
  obtain ⟨hvalid, hnonneg, hle⟩ := h b v (hs ▸ hv)
  exact ⟨hvalid, hnonneg, hle.trans (VestingSchedule.vested_mono hvalid hnow)⟩

theorem same (h : w.docket.Vests) (hs : SameSchedules w w') : w'.docket.Vests :=
  h.of_eq hs.schedules (Nat.le_of_eq (congrArg Ledger.timestamp hs.ledger).symm)

/-- `w'` has sound schedules if `w` has. -/
def Keeps (w w' : World) : Prop := w.docket.Vests → w'.docket.Vests

instance : IsPreorder World Keeps where
  refl _ := id
  trans _ _ _ h h' := h' ∘ h

instance {α : Type} {x : G α} [hx : Tx.Within SameSchedules x] : Tx.Within Keeps x where
  moves w h := h.same (hx.moves w)

instance {b : Address} {category : VestingCategory} {totalAmount : Int}
    {startTime cliffSeconds durationSeconds : Nat} :
    Tx.Within Keeps (createSchedule b category totalAmount startTime cliffSeconds durationSeconds) where
  moves w h := by
    rcases hr : createSchedule b category totalAmount startTime cliffSeconds durationSeconds w with ⟨e | u, w'⟩
    · simp [createSchedule] at hr
      rcases hr with ⟨-, -, rfl⟩ | ⟨-, ⟨-, -, rfl⟩ | ⟨-, -, -, rfl⟩⟩ <;> exact h
    · simp [createSchedule] at hr
      obtain ⟨hpos, ⟨hlasts, hordered⟩, -, rfl⟩ := hr
      have hvalid (category : VestingCategory) : VestingSchedule.Valid ⟨b, category, totalAmount, 0, startTime,
          cliffSeconds, durationSeconds⟩ := ⟨hpos, Nat.pos_of_ne_zero hlasts, hordered⟩
      exact Store.All.insert h ⟨hvalid category, Int.le_refl 0, VestingSchedule.vested_nonneg (hvalid category)⟩

theorem initializeGovernance {admin : Address} {name symbol : Bytes} {decimals : Nat} {totalSupply : Int}
    {recipients : DistributionRecipients} {u : Unit} (h : w.docket.Vests)
    (hcall : initializeGovernance auth admin name symbol decimals totalSupply recipients w = (.ok u, w')) :
    w'.docket.Vests := by
  obtain ⟨-, d, w₁, hd, rfl⟩ := initializeGovernance_ok.mp hcall
  have hx : Tx.Within Keeps (initializeDistribution recipients totalSupply DEFAULT_LIQUIDITY_REWARD_BPS
      DEFAULT_MIN_CLAIM_THRESHOLD) := by
    unfold initializeDistribution
    infer_instance
  have hv : w₁.docket.Vests := hx.of_run hd h
  refine hv.of_eq ?_ (Nat.le_refl _)
  simp [World.docket, Storage.started]

theorem releaseVestedTokens {b : Address} {n : Int} (h : w.docket.Vests)
    (hcall : releaseVestedTokens auth b w = (.ok n, w')) : w'.docket.Vests := by
  have hauth : auth b = true ∧ ∃ v, w.store.token.vestingSchedules.lookup b = some v := by
    simp [Governance.releaseVestedTokens] at hcall
    exact ⟨hcall.2.1, _, hcall.2.2.choose_spec.1⟩
  obtain ⟨hauth, v, hv⟩ := hauth
  obtain ⟨hvalid, hnonneg, hle⟩ := h b v hv
  obtain ⟨-, -, -, rfl⟩ := (releaseVestedTokens_iff hvalid hv hauth hnonneg hle).mp hcall
  have hpaid : (v.paid (v.vested w.ledger.timestamp)).OnCurve w.ledger.timestamp :=
    ⟨⟨hvalid.positive, hvalid.lasts, hvalid.ordered⟩, VestingSchedule.vested_nonneg hvalid, Int.le_refl _⟩
  have hs : (w.payVested b v (v.vested w.ledger.timestamp)).docket.token.vestingSchedules =
      w.store.token.vestingSchedules.insert b (v.paid (v.vested w.ledger.timestamp)) :=
    setBalance_vestingSchedules _
  exact fun b' v' hv' => h.insert hpaid b' v' (hs ▸ hv')

theorem addVestingSchedule {b : Address} {totalAmount : Int} {startTime cliffSeconds durationSeconds : Nat}
    {u : Unit} (h : w.docket.Vests)
    (hcall : addVestingSchedule b totalAmount startTime cliffSeconds durationSeconds w = (.ok u, w')) :
    w'.docket.Vests := by
  unfold Governance.addVestingSchedule at hcall
  exact Tx.Within.of_run (R := Keeps) inferInstance hcall h

/-- A call that writes the token and nothing that the docket has of proposals. -/
theorem other (h : w.docket.Vests) (hc : .log ∉ c.footprint)
    (hcall : invoke auth c w = (.ok (), w')) : w'.docket.Vests := by
  have hwrites := (invoke_writes auth c).of_run hcall
  by_cases htoken : .token ∈ c.footprint
  · cases c
    case initializeGovernance => exact h.initializeGovernance hcall
    case releaseVestedTokens =>
      obtain ⟨_, hcall⟩ := Tx.void_ok.mp hcall
      exact h.releaseVestedTokens hcall
    case stake | unstake | setVoteLock | accrueLiquidityRewards | claimLiquidityRewards | setLiquidityMiningConfig =>
      simp only [invoke, stake, Token.stake, subtractBalance, addStakedBalance, unstake, Token.unstake,
        subtractStakedBalance, setVoteLock, accrueLiquidityRewards, rewardForVolume, reserveLiquidityRewards,
        claimLiquidityRewards, claimReservedLiquidityRewards, setLiquidityMiningConfig, putDistributionState] at hcall
      exact h.same (Tx.Within.of_run inferInstance hcall)
    case direct caller action =>
      cases action
      case vestingSchedule =>
        simp [invoke, invokeDirect, createVestingSchedule] at hcall
        exact h.addVestingSchedule hcall.2.2
      all_goals simp [Call.footprint, AdminAction.footprint] at htoken
    case timelocked caller actionId action =>
      obtain ⟨-, entry, -, hx⟩ := invokeTimelocked_ok hcall
      cases action
      case vestingSchedule =>
        have hentry : (Timelock.setEntry w actionId fun e => { e with executed := true }).docket.Vests :=
          h.of_eq rfl (Nat.le_refl _)
        exact hentry.addVestingSchedule hx
      all_goals simp [Call.footprint, AdminAction.footprint] at htoken
    all_goals simp [Call.footprint, executionRegions] at htoken hc
  · exact h.same ⟨hwrites.ledger, congrArg TokenStorage.vestingSchedules (hwrites.same .token htoken)⟩

theorem effect {p : Proposal} {t : TokenStorage} (h : d.Vests) (he : Effect d.token p.proposalType t) :
    (d.apply p t).Vests := by
  refine h.of_eq ?_ (Nat.le_refl _)
  cases hp : p.proposalType
  case treasurySpend =>
    rw [hp] at he
    exact he.2.2 ▸ setBalance_vestingSchedules _
  all_goals
    rw [hp] at he
    exact congrArg TokenStorage.vestingSchedules he

theorem executed {p : Proposal} (h : d.Vests) (he : Executed d p d') : d'.Vests := by
  obtain ⟨t, heffect, rfl⟩ := he.effect
  exact h.effect heffect

theorem runsEach {ids : List Nat} (h : d.Vests) (hr : RunsEach ids d d') : d'.Vests := by
  induction hr with
  | nil => exact h
  | skip _ ih => exact ih h
  | run hrun _ ih => exact ih (hrun.eq ▸ h.effect hrun.effect)

theorem credit {id : Nat} {recipient : Address} (h : d.Vests) : ((d.credit id recipient).release id).Vests :=
  h.of_eq (setBalance_vestingSchedules _) (Nat.le_refl _)

theorem settled {id : Nat} {treasury : Address} (h : d.Vests) (hs : Settled d id treasury d') : d'.Vests := by
  cases hs with
  | none => exact h
  | paid => exact h.credit
  | stuck => exact h

theorem move (h : w.docket.Vests) (hw : w.docket.WellFormed) (hcall : invoke auth c w = (.ok (), w')) :
    w'.docket.Vests := by
  have hm := docketMove_of_call hw hcall
  generalize hd : w'.docket = d' at hm
  cases hm with
  | create _ _ h' =>
    subst h'
    exact h.of_eq (setBalance_vestingSchedules _) (Nat.le_refl _)
  | vote _ _ _ _ h' => subst h'; exact h
  | reputationVote _ _ _ h' => subst h'; exact h
  | @finalize id p status d₁ _ _ _ _ hexec hsettle =>
    have hput : (w.docket.put (p.withStatus status)).Vests := h
    rcases hexec with rfl | ⟨-, hexec⟩
    · exact hput.settled hsettle
    · exact (hput.executed hexec).settled hsettle
  | execute _ h' => exact h.executed h'
  | run h' => exact h.runsEach h'
  | cancel _ _ h' => subst h'; exact h
  | cancelQueued _ _ _ _ h' => subst h'; exact h
  | @withdraw id p _ _ _ h' =>
    have hput : (w.docket.put (p.withStatus .withdrawn)).Vests := h
    cases h' with
    | none => exact hput
    | paid => exact hput.credit
    | lost => exact hput
  | remove h' => rw [h'.eq]; exact h
  | restart => exact hd ▸ h.initializeGovernance hcall
  | queue _ _ _ _ h' => subst h'; exact h
  | other hc => exact hd ▸ h.other hc hcall

/-- The schedules are on the curve in every state. -/
theorem of_reaches {ledger : Ledger} (h : Reaches Step (World.deployed ledger) w) : w.docket.Vests := by
  refine (h.invariant (I := fun w => w.docket.WellFormed ∧ w.docket.Vests)
    ⟨wellFormed_start ledger, Store.all_empty _⟩ ?_).2
  rintro a ev b ⟨hw, hv⟩ hs
  refine ⟨wellFormed_step hw hs, ?_⟩
  rcases hs.cases with ⟨auth, c, rfl, hcall⟩ | ⟨auth, c, rfl, rfl⟩ | ⟨l, rfl, hbefore, rfl⟩ |
    ⟨treasury, committees, rewardBps, minClaimThreshold, rfl, rfl⟩
  · exact hv.move hw hcall
  · exact hv
  · exact hv.of_eq rfl hbefore.1
  · exact hv.of_eq rfl (Nat.le_refl _)

end Docket.Vests

/-! ## Path independence -/

/-- How much of `v` is released by `T` is what is vested by then, and does not depend on the calls before. -/
structure PathIndependent (auth : Auth) (b : Address) (v : VestingSchedule) (w : World) (T : Nat) : Prop where
  same (ls ls' : List Ledger) : Until T w.ledger ls → Until T w.ledger ls' →
    releasedOf (releases auth b w ls) b = releasedOf (releases auth b w ls') b
  vested (ls : List Ledger) : Until T w.ledger ls → releasedOf (releases auth b w ls) b = v.vested T
  grows (T' : Nat) (ls ls' : List Ledger) : T' ≤ T → Until T' w.ledger ls' → Until T w.ledger ls →
    releasedOf (releases auth b w ls') b ≤ releasedOf (releases auth b w ls) b
  cliff (ls : List Ledger) : T < v.cliffTime → Until T w.ledger ls → releasedOf (releases auth b w ls) b = 0
  bounded (ls : List Ledger) : Until T w.ledger ls → releasedOf (releases auth b w ls) b ≤ v.totalAmount

/-- How much is released by `T` does not depend on the calls before exactly when everything that is vested
by `T` was paid before them, or a release of it fits. -/
theorem path_independent_iff {ledger : Ledger} {w : World} {auth : Auth} {b : Address} {v : VestingSchedule}
    {T : Nat} (h : Reaches Step (World.deployed ledger) w) (hauth : auth b = true)
    (hv : w.store.token.vestingSchedules.lookup b = some v) (hT : w.ledger.timestamp ≤ T) :
    PathIndependent auth b v w T ↔ Settles w b v T := by
  obtain ⟨hvalid, hnonneg, hle⟩ := Docket.Vests.of_reaches h b v hv
  have hpaid {T : Nat} {ls : List Ledger} (hs : Until T w.ledger ls) := releases_paid hs hvalid hv hauth hnonneg hle
  have hmono {T' : Nat} (hle : T' ≤ T) : v.vested T' ≤ v.vested T := VestingSchedule.vested_mono hvalid hle
  constructor
  · intro hp
    -- a single release at `T`
    have hs : Until T w.ledger [⟨T, w.ledger.sequence⟩] := .last ⟨hT, Nat.le_refl _⟩ rfl
    have hvested := hp.vested _ hs
    have hle' : v.releasedAmount ≤ v.vested T := hle.trans (hmono hT)
    obtain ⟨-, ⟨hfits, -⟩ | ⟨-, hpaid⟩⟩ := releaseAt_paid (l := ⟨T, w.ledger.sequence⟩) hvalid hv hauth hnonneg hle'
    · exact .inr hfits
    · exact .inl (hpaid.released.symm.trans hvested)
  · intro hsettles
    have hvested (ls : List Ledger) (hs : Until T w.ledger ls) :
        releasedOf (releases auth b w ls) b = v.vested T := by
      obtain ⟨n, hp, -, -, hn⟩ := hpaid hs
      exact hp.released.trans (hn hsettles)
    refine ⟨fun ls ls' hs hs' => (hvested ls hs).trans (hvested ls' hs').symm, hvested, ?_, ?_, ?_⟩
    · intro T' ls ls' hT' hs' hs
      obtain ⟨n, hp, -, hn, -⟩ := hpaid hs'
      rw [hp.released, hvested ls hs]
      exact hn.trans (hmono hT')
    · intro ls hlt hs
      rw [hvested ls hs, VestingSchedule.vested_of_before hlt]
    · intro ls hs
      rw [hvested ls hs]
      exact VestingSchedule.vested_le_total hvalid

namespace Sample

/-- Tokens for the stranger vest over ten seconds. -/
def vestingRun (totalAmount : Int) : List Event :=
  [callBy admin initializeCall, callBy admin (.direct admin (.vestingSchedule mallory totalAmount 0 0 10))]

end Sample

open Sample in
/-- Releasing twice gives what releasing once does. -/
theorem small_schedule_path_independent : ∃ v,
    (deployedRun (vestingRun 1000)).store.token.vestingSchedules.lookup mallory = some v ∧
      PathIndependent (fun _ => true) mallory v (deployedRun (vestingRun 1000)) 7 := by
  have hreach : Reaches Step (World.deployed ⟨0, 0⟩) (deployedRun (vestingRun 1000)) :=
    Reaches.of_along (by decide +kernel)
  have hv : (deployedRun (vestingRun 1000)).store.token.vestingSchedules.lookup mallory =
      some ⟨mallory, .custom, 1000, 0, 0, 0, 10⟩ := by decide +kernel
  refine ⟨_, hv, (path_independent_iff hreach rfl hv (by decide +kernel)).mpr (.inr ⟨?_, ?_, ?_⟩)⟩
  all_goals decide +kernel

open Sample in
/-- The product of a large total and two seconds does not fit, that of one second does. -/
theorem large_schedule_depends_on_calls :
    let w := deployedRun (vestingRun i128Max)
    releasedOf (releases (fun _ => true) mallory w [⟨2, 0⟩]) mallory = 0 ∧
    releasedOf (releases (fun _ => true) mallory w [⟨1, 0⟩, ⟨2, 0⟩]) mallory = i128Max / 10 ∧
    ¬ ∀ w v, Reaches Step (World.deployed ⟨0, 0⟩) w →
      w.store.token.vestingSchedules.lookup mallory = some v →
      PathIndependent (fun _ => true) mallory v w 2 := by
  have hreach : Reaches Step (World.deployed ⟨0, 0⟩) (deployedRun (vestingRun i128Max)) :=
    Reaches.of_along (by decide +kernel)
  have hone : releasedOf (releases (fun _ => true) mallory (deployedRun (vestingRun i128Max)) [⟨2, 0⟩])
      mallory = 0 := by decide +kernel
  have htwo : releasedOf (releases (fun _ => true) mallory (deployedRun (vestingRun i128Max))
      [⟨1, 0⟩, ⟨2, 0⟩]) mallory = i128Max / 10 := by decide +kernel
  refine ⟨hone, htwo, fun hall => ?_⟩
  have hv : (deployedRun (vestingRun i128Max)).store.token.vestingSchedules.lookup mallory =
      some ⟨mallory, .custom, i128Max, 0, 0, 0, 10⟩ := by decide +kernel
  have hsame := (hall _ _ hreach hv).same [⟨2, 0⟩] [⟨1, 0⟩, ⟨2, 0⟩] (.last (by decide +kernel) rfl)
    (.more (by decide +kernel) (.last (by decide +kernel) rfl))
  rw [hone, htwo] at hsame
  exact absurd hsame (by decide)

end CallStake.Governance
