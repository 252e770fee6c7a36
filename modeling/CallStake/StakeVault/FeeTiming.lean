import CallStake.StakeVault.FeeSolvency
import Mathlib.Algebra.Order.BigOperators.Group.Finset

/-!
# When fees are settled

Two runs over one accumulator: the calls of the second are those of the first, with settlements and claims inserted.
A settlement moves what a position is owed to what it has realized, and a claim pays that out, so the inserted calls
leave claimed and pending together as they are; and no call of the first run fails for them, except a claim that
finds nothing left.

* `Book`, `perform`: an accumulator with any number of positions, and what each of them claimed.
* `Succeeds`, `Runs`: runs in which every call succeeds; runs in which a call may fail, with its writes or without.
* `Twin`: two states of one position, of which the second claimed at least as much; `Alongside` is that for books.
* `Alongside.inserted`, `Alongside.call`: what an inserted call and a common call keep.
-/

namespace CallStake.FeeAccrual

open Tx

/-! ## Books -/

/-- An accumulator, its positions by number, and the fees that each of them claimed so far. -/
structure Book where
  state : FeeAccrualState
  positions : Nat → StakerFeePosition
  claimed : Nat → Int

def Book.setPosition (b : Book) (id : Nat) (p : StakerFeePosition) : Book :=
  { b with positions := Function.update b.positions id p }

/-- A call on a position. -/
def onEntry {α : Type} (id : Nat) (x : Tx StakerFeePosition FeeAccrualError α) : Tx Book FeeAccrualError α :=
  Tx.zoom (fun b => b.positions id) (fun p b => b.setPosition id p) x

/-- A call on the accumulator and a position. -/
def onAccount {α : Type} (id : Nat) (x : Tx Account FeeAccrualError α) : Tx Book FeeAccrualError α :=
  Tx.zoom (fun b => ⟨b.state, b.positions id⟩)
    (fun a b => { b with state := a.state, positions := Function.update b.positions id a.position }) x

def credit (id : Nat) (amount : Int) : Tx Book FeeAccrualError Unit :=
  Tx.modify fun b => { b with claimed := Function.update b.claimed id (b.claimed id + amount) }

/-- An operation on the books. -/
def perform : Op → Tx Book FeeAccrualError Unit
  | .accrueDeposit amount ledgerSeq timestamp =>
    Tx.void (Tx.zoom (·.state) (fun state b => { b with state }) (accrueDeposit amount ledgerSeq timestamp))
  | .addShares id amount => onAccount id (addShares amount)
  | .removeShares id amount => onAccount id (removeShares amount)
  | .settle id => do
    let state ← Tx.gets (·.state)
    Tx.void (onEntry id (settle state))
  | .claim id => do
    let state ← Tx.gets (·.state)
    let amount ← onEntry id (claim state)
    credit id amount

/-- A new accumulator with positions that were just created. -/
structure Book.IsNew (b : Book) : Prop where
  state : b.state = .new
  positions : ∀ id, b.positions id = .new (b.positions id).staker
  claimed : ∀ id, b.claimed id = 0

/-! ## Runs -/

/-- A run in which every call succeeds. -/
inductive Succeeds : Book → List Op → Book → Prop
  | nil (b : Book) : Succeeds b [] b
  | cons {b c d : Book} {op : Op} {ops : List Op} (h : perform op b = (.ok (), c)) (hr : Succeeds c ops d) :
    Succeeds b (op :: ops) d

/-- A call that may fail: then its writes stay, as its caller has them, or the caller's failure undoes them. -/
inductive Performs (op : Op) (b : Book) : Book → Prop
  | call : Performs op b (perform op b).2
  | undone {e : FeeAccrualError} (h : (perform op b).1 = .error e) : Performs op b b

/-- A run in which calls may fail. -/
inductive Runs : Book → List Op → Book → Prop
  | nil (b : Book) : Runs b [] b
  | cons {b c d : Book} {op : Op} {ops : List Op} (h : Performs op b c) (hr : Runs c ops d) : Runs b (op :: ops) d

def Op.IsSettlement : Op → Prop
  | .settle _ | .claim _ => True
  | _ => False

/-- The second list is the first with settlements and claims of any positions inserted at any points. -/
inductive Inserted : List Op → List Op → Prop
  | nil : Inserted [] []
  | keep (op : Op) {ops ops' : List Op} (h : Inserted ops ops') : Inserted (op :: ops) (op :: ops')
  | insert {op : Op} {ops ops' : List Op} (hop : op.IsSettlement) (h : Inserted ops ops') : Inserted ops (op :: ops')

/-! ## One position -/

section Position

variable {state : FeeAccrualState} {p p' : StakerFeePosition} {acc acc' n : Int}

/-- A position in order whose debt and realized fees are not negative. -/
structure StakerFeePosition.Sound (acc : Int) (p : StakerFeePosition) : Prop extends p.Ok acc where
  debtNonneg : 0 ≤ p.feeDebt
  realized : 0 ≤ p.realized

/-- The products and sums of a settlement fit. -/
structure StakerFeePosition.Fits (acc : Int) (p : StakerFeePosition) : Prop where
  scaled : p.shares * acc ≤ i128Max
  owed : owed acc p ≤ i128Max

theorem StakerFeePosition.Sound.owed_nonneg (h : p.Sound acc) : 0 ≤ owed acc p := by
  have hd := h.debt
  have hr := h.realized
  unfold owed
  omega

theorem accumulatedFor_eq {shares : Int} (hs : 0 ≤ shares) (ha : 0 ≤ acc) (h : shares * acc ≤ i128Max) :
    accumulatedFor shares acc = .ok (accumulated acc shares) := by
  have h0 : 0 ≤ shares * acc := Int.mul_nonneg hs ha
  have hmul : mul shares acc = .ok (shares * acc) := mul_ok.mpr ⟨by unfold i128Min; omega, h, rfl⟩
  unfold accumulatedFor
  rw [hmul]
  exact congrArg Except.ok (Int.tdiv_eq_ediv_of_nonneg h0)

theorem accumulatedFor_fits {shares c : Int} (h : accumulatedFor shares acc = .ok c) : shares * acc ≤ i128Max := by
  obtain ⟨_, hm, -⟩ := except_bind_ok.mp h
  exact (mul_ok.mp hm).2.1

/-- The difference to the debt fits. -/
theorem StakerFeePosition.Sound.sub_eq (h : p.Sound acc) (hs : p.shares * acc ≤ i128Max) :
    sub (accumulated acc p.shares) p.feeDebt = .ok (accumulated acc p.shares - p.feeDebt) := by
  have hle := accumulated_le hs
  have hd := h.debt
  have hn := h.debtNonneg
  exact sub_ok.mpr ⟨by unfold i128Min; omega, by omega, rfl⟩

theorem StakerFeePosition.Sound.add_eq (h : p.Sound acc) (ho : owed acc p ≤ i128Max) :
    add p.realized (accumulated acc p.shares - p.feeDebt) = .ok (owed acc p) := by
  have h0 := h.owed_nonneg
  unfold owed at h0 ho
  exact add_ok.mpr ⟨by unfold i128Min; omega, ho, rfl⟩

theorem StakerFeePosition.Sound.newly_eq (h : p.Sound acc) :
    (if accumulated acc p.shares - p.feeDebt < 0 then 0 else accumulated acc p.shares - p.feeDebt) =
      accumulated acc p.shares - p.feeDebt := by
  have hd := h.debt
  rw [if_neg (by omega)]

/-- A settlement succeeds iff its sums fit, and otherwise writes nothing. -/
theorem settle_of_fits (h : p.Sound state.accFeePerShare) (ha : 0 ≤ state.accFeePerShare)
    (hf : p.Fits state.accFeePerShare) : ∃ n, settle state p = (.ok n, p.settled state.accFeePerShare) := by
  refine ⟨accumulated state.accFeePerShare p.shares - p.feeDebt, ?_⟩
  simp only [settle, bind_gets_ok, bind_ofExcept_ok, bind_modify_ok, pure_ok, id_eq]
  exact ⟨_, accumulatedFor_eq h.shares ha hf.scaled, _, h.sub_eq hf.scaled, _,
    by rw [h.newly_eq]; exact h.add_eq hf.owed, h.newly_eq, rfl⟩

theorem settle_fits (h : p.Sound state.accFeePerShare) (ha : 0 ≤ state.accFeePerShare)
    (hs : settle state p = (.ok n, p')) : p.Fits state.accFeePerShare := by
  simp only [settle, bind_gets_ok, bind_ofExcept_ok, bind_modify_ok, pure_ok, id_eq] at hs
  obtain ⟨c, hc, d, hd, r, hr, -, -⟩ := hs
  obtain rfl := accumulatedFor_ok h.shares ha hc
  obtain ⟨-, -, rfl⟩ := sub_ok.mp hd
  have hnewly := h.newly_eq
  unfold accumulated at hnewly
  rw [hnewly] at hr
  exact ⟨accumulatedFor_fits hc, (add_ok.mp hr).2.1⟩

theorem settle_error {e : FeeAccrualError} (hs : settle state p = (.error e, p')) : p' = p := by
  simp only [settle, bind_error, gets_error, ofExcept_error, modify_error, pure_error, gets_ok,
    ofExcept_ok, modify_ok, false_or, or_false, and_false, exists_false, id_eq] at hs
  obtain ⟨_, _, ⟨rfl, rfl⟩, ⟨-, rfl⟩ | ⟨_, _, ⟨-, rfl⟩, ⟨-, rfl⟩ | ⟨_, _, ⟨-, rfl⟩, -, rfl⟩⟩⟩ := hs <;> rfl

theorem pending_of_fits (h : p.Sound state.accFeePerShare) (ha : 0 ≤ state.accFeePerShare)
    (hf : p.Fits state.accFeePerShare) : pending state p = .ok (owed state.accFeePerShare p) :=
  except_bind_ok.mpr ⟨_, accumulatedFor_eq h.shares ha hf.scaled, except_bind_ok.mpr
    ⟨_, h.sub_eq hf.scaled, by rw [h.newly_eq]; exact h.add_eq hf.owed⟩⟩

theorem pending_fits (h : p.Sound state.accFeePerShare) (ha : 0 ≤ state.accFeePerShare)
    (hs : pending state p = .ok n) : p.Fits state.accFeePerShare := by
  have hn := pending_ok h.toOk ha hs
  obtain ⟨c, hc, hs⟩ := except_bind_ok.mp hs
  obtain ⟨d, -, hs⟩ := except_bind_ok.mp hs
  obtain ⟨-, hle, hsum⟩ := add_ok.mp hs
  exact ⟨accumulatedFor_fits hc, by omega⟩

theorem StakerFeePosition.Sound.settled (h : p.Sound acc) (ha : 0 ≤ acc) : (p.settled acc).Sound acc :=
  ⟨⟨h.shares, Int.le_refl _⟩, accumulated_nonneg h.shares ha, h.owed_nonneg⟩

theorem owed_settled (acc : Int) (p : StakerFeePosition) : owed acc (p.settled acc) = owed acc p := by
  simp [owed, StakerFeePosition.settled]

theorem StakerFeePosition.Sound.mono (h : p.Sound acc) (ha : acc ≤ acc') : p.Sound acc' :=
  ⟨⟨h.shares, Int.le_trans h.debt (accumulated_mono h.shares ha)⟩, h.debtNonneg, h.realized⟩

/-- A claim pays out what is owed, or fails with a settlement if nothing is. -/
theorem claim_of_fits (h : p.Sound state.accFeePerShare) (ha : 0 ≤ state.accFeePerShare)
    (hf : p.Fits state.accFeePerShare) :
    claim state p = (.ok (owed state.accFeePerShare p), { p.settled state.accFeePerShare with realized := 0 }) ∨
      (owed state.accFeePerShare p = 0 ∧ ∃ e, claim state p = (.error e, p.settled state.accFeePerShare)) := by
  have ho := h.owed_nonneg
  obtain ⟨n, hs⟩ := settle_of_fits h ha hf
  by_cases h0 : owed state.accFeePerShare p ≤ 0
  · refine .inr ⟨by omega, .nothingToClaim, Tx.bind_error.mpr (.inr ⟨n, _, hs, ?_⟩)⟩
    exact Tx.bind_error.mpr (.inr ⟨_, _, rfl, Tx.bind_error.mpr (.inl (Tx.failIf_error.mpr ⟨h0, rfl, rfl⟩))⟩)
  · refine .inl (Tx.bind_ok.mpr ⟨n, _, hs, ?_⟩)
    exact Tx.bind_gets_ok.mpr (Tx.bind_failIf_ok.mpr ⟨h0, rfl⟩)

theorem claim_of_not_fits (h : p.Sound state.accFeePerShare) (ha : 0 ≤ state.accFeePerShare)
    (hf : ¬ p.Fits state.accFeePerShare) : ∃ e, claim state p = (.error e, p) := by
  rcases hs : settle state p with ⟨e | n, p₁⟩
  · obtain rfl := settle_error hs
    exact ⟨e, Tx.bind_error.mpr (.inl hs)⟩
  · exact absurd (settle_fits h ha hs) hf

end Position

/-! ## Two states of a position -/

/-- Two states of a position: the second claimed what it is owed less. -/
structure Twin (acc : Int) (p q : StakerFeePosition) (claimed claimed' : Int) : Prop where
  left : p.Sound acc
  right : q.Sound acc
  shares : q.shares = p.shares
  total : claimed' + owed acc q = claimed + owed acc p
  ahead : claimed ≤ claimed'

namespace Twin

variable {state : FeeAccrualState} {acc acc' claimed claimed' : Int} {p q : StakerFeePosition}

theorem owed_le (h : Twin acc p q claimed claimed') : owed acc q ≤ owed acc p := by
  have ht := h.total
  have ha := h.ahead
  omega

theorem fits (h : Twin acc p q claimed claimed') (hf : p.Fits acc) : q.Fits acc :=
  ⟨h.shares ▸ hf.scaled, Int.le_trans h.owed_le hf.owed⟩

/-- A deposit adds the same to what both are owed. -/
theorem deposit (h : Twin acc p q claimed claimed') (ha : acc ≤ acc') : Twin acc' p q claimed claimed' where
  left := h.left.mono ha
  right := h.right.mono ha
  shares := h.shares
  total := by
    have ht := h.total
    unfold owed at ht ⊢
    rw [h.shares] at ht ⊢
    omega
  ahead := h.ahead

theorem settle_right (h : Twin acc p q claimed claimed') (ha : 0 ≤ acc) :
    Twin acc p (q.settled acc) claimed claimed' where
  left := h.left
  right := h.right.settled ha
  shares := h.shares
  total := by rw [owed_settled]; exact h.total
  ahead := h.ahead

theorem settle_left (h : Twin acc p q claimed claimed') (ha : 0 ≤ acc) :
    Twin acc (p.settled acc) q claimed claimed' where
  left := h.left.settled ha
  right := h.right
  shares := h.shares
  total := by rw [owed_settled]; exact h.total
  ahead := h.ahead

/-- What a claim leaves of a position. -/
theorem owed_claimed (acc : Int) (p : StakerFeePosition) :
    owed acc { p.settled acc with realized := 0 } = 0 := by
  simp [owed, StakerFeePosition.settled]

theorem sound_claimed (h : p.Sound acc) (ha : 0 ≤ acc) :
    StakerFeePosition.Sound acc { p.settled acc with realized := 0 } :=
  ⟨⟨h.shares, Int.le_refl _⟩, accumulated_nonneg h.shares ha, Int.le_refl _⟩

theorem claim_right (h : Twin acc p q claimed claimed') (ha : 0 ≤ acc) :
    Twin acc p { q.settled acc with realized := 0 } claimed (claimed' + owed acc q) where
  left := h.left
  right := sound_claimed h.right ha
  shares := h.shares
  total := by rw [owed_claimed]; have ht := h.total; omega
  ahead := by have h0 := h.right.owed_nonneg; have ha := h.ahead; omega

/-- A claim by the first, where nothing is owed to the second any more. -/
theorem claim_left (h : Twin acc p q claimed claimed') (ha : 0 ≤ acc) (h0 : owed acc q = 0) :
    Twin acc { p.settled acc with realized := 0 } q (claimed + owed acc p) claimed' where
  left := sound_claimed h.left ha
  right := h.right
  shares := h.shares
  total := by rw [owed_claimed]; have ht := h.total; omega
  ahead := by have ht := h.total; omega

/-- The same change of shares on both. -/
theorem withShares {shares : Int} (h : Twin acc p q claimed claimed') (ha : 0 ≤ acc) (hs : 0 ≤ shares) :
    Twin acc (p.withShares acc shares) (q.withShares acc shares) claimed claimed' where
  left := ⟨⟨hs, Int.le_refl _⟩, accumulated_nonneg hs ha, h.left.owed_nonneg⟩
  right := ⟨⟨hs, Int.le_refl _⟩, accumulated_nonneg hs ha, h.right.owed_nonneg⟩
  shares := rfl
  total := by
    have ht := h.total
    simp only [owed, StakerFeePosition.withShares] at ht ⊢
    omega
  ahead := h.ahead

end Twin

/-! ## Two books -/

/-- The shares of the positions outside `ids` are `0`, and those in `ids` add up to the total. -/
structure Book.Ok (b : Book) : Prop where
  acc : 0 ≤ b.state.accFeePerShare
  carry : 0 ≤ b.state.carry
  shares : ∀ id, 0 ≤ (b.positions id).shares
  total : ∃ ids : Finset Nat, (∀ id, id ∉ ids → (b.positions id).shares = 0) ∧
    b.state.totalShares = ∑ id ∈ ids, (b.positions id).shares

theorem Book.Ok.total_nonneg {b : Book} (h : b.Ok) : 0 ≤ b.state.totalShares := by
  obtain ⟨ids, -, ht⟩ := h.total
  rw [ht]
  exact Finset.sum_nonneg fun id _ => h.shares id

/-- A change of the shares of one position and of the total. -/
theorem Book.Ok.setShares {b b' : Book} (h : b.Ok) (id : Nat) (p : StakerFeePosition)
    (hp : b'.positions = Function.update b.positions id p) (hs : 0 ≤ p.shares)
    (hacc : b'.state.accFeePerShare = b.state.accFeePerShare) (hcarry : b'.state.carry = b.state.carry)
    (ht : b'.state.totalShares = b.state.totalShares + (p.shares - (b.positions id).shares)) : b'.Ok where
  acc := hacc ▸ h.acc
  carry := hcarry ▸ h.carry
  shares i := by
    rw [hp, Function.update_apply]
    split
    · exact hs
    · exact h.shares i
  total := by
    obtain ⟨ids, hout, hsum⟩ := h.total
    refine ⟨insert id ids, fun i hi => ?_, ?_⟩
    · rw [Finset.mem_insert, not_or] at hi
      rw [hp, Function.update_of_ne hi.1]
      exact hout i hi.2
    · have hall : ∑ i ∈ insert id ids, (b.positions i).shares = b.state.totalShares := by
        rw [hsum]
        exact Finset.sum_insert_of_eq_zero_if_notMem (hout id)
      have hold := Finset.add_sum_erase (insert id ids) (fun i => (b.positions i).shares)
        (Finset.mem_insert_self id ids)
      have hnew := Finset.add_sum_erase (insert id ids) (fun i => (b'.positions i).shares)
        (Finset.mem_insert_self id ids)
      have hrest : ∑ i ∈ (insert id ids).erase id, (b'.positions i).shares =
          ∑ i ∈ (insert id ids).erase id, (b.positions i).shares := by
        refine Finset.sum_congr rfl fun i hi => ?_
        rw [hp, Function.update_of_ne (Finset.ne_of_mem_erase hi)]
      have hid : (b'.positions id).shares = p.shares := by rw [hp, Function.update_self]
      rw [hrest, hid] at hnew
      omega

/-- The same accumulator, and two states of every position. -/
structure Alongside (b c : Book) : Prop where
  ok : b.Ok
  state : c.state = b.state
  twin : ∀ id, Twin b.state.accFeePerShare (b.positions id) (c.positions id) (b.claimed id) (c.claimed id)

section Calls

variable {b b' c c' : Book} {id : Nat} {op : Op}

/-- Both states of one position are replaced. -/
theorem Alongside.set {p q : StakerFeePosition} {n n' : Int} (h : Alongside b c) (hok : b'.Ok)
    (hstate : c'.state = b'.state) (hacc : b'.state.accFeePerShare = b.state.accFeePerShare)
    (hp : b'.positions = Function.update b.positions id p) (hn : b'.claimed = Function.update b.claimed id n)
    (hq : c'.positions = Function.update c.positions id q) (hn' : c'.claimed = Function.update c.claimed id n')
    (ht : Twin b.state.accFeePerShare p q n n') : Alongside b' c' where
  ok := hok
  state := hstate
  twin i := by
    rw [hacc, hp, hq, hn, hn']
    simp only [Function.update_apply]
    split
    · exact ht
    · exact h.twin i

/-! ### Settlements -/

theorem setPosition_self (b : Book) (id : Nat) : b.setPosition id (b.positions id) = b := by
  unfold Book.setPosition
  rw [Function.update_eq_self]

theorem Book.Ok.setPosition {p : StakerFeePosition} (h : b.Ok) (id : Nat)
    (hp : p.shares = (b.positions id).shares) : (b.setPosition id p).Ok :=
  h.setShares id p rfl (hp ▸ h.shares id) rfl rfl (by rw [hp, Int.sub_self]; exact (Int.add_zero _).symm)

theorem perform_settle_ok {u : Unit} :
    perform (.settle id) b = (.ok u, b') ↔
      ∃ n p, settle b.state (b.positions id) = (.ok n, p) ∧ b.setPosition id p = b' := by
  simp [perform, onEntry]

theorem perform_claim_ok {u : Unit} :
    perform (.claim id) b = (.ok u, b') ↔
      ∃ n p, claim b.state (b.positions id) = (.ok n, p) ∧
        { b.setPosition id p with claimed := Function.update b.claimed id (b.claimed id + n) } = b' := by
  unfold perform
  rw [bind_gets_ok, bind_ok]
  simp only [credit, onEntry, zoom_ok, modify_ok]
  constructor
  · rintro ⟨n, _, ⟨p, hc, rfl⟩, rfl⟩
    exact ⟨n, p, hc, rfl⟩
  · rintro ⟨n, p, hc, rfl⟩
    exact ⟨n, _, ⟨p, hc, rfl⟩, rfl⟩

/-- How a call on a position ends where it may fail. -/
theorem Performs.cases (h : Performs op b b') :
    perform op b = (.ok (), b') ∨ ∃ e c, perform op b = (.error e, c) ∧ (b' = c ∨ b' = b) := by
  cases h with
  | call =>
    rcases hr : perform op b with ⟨e | u, c⟩
    · exact .inr ⟨e, c, rfl, .inl rfl⟩
    · exact .inl rfl
  | undone he =>
    rcases hr : perform op b with ⟨e | u, c⟩
    · exact .inr ⟨e, c, rfl, .inr rfl⟩
    · rw [hr] at he; cases he

theorem perform_settle_error {e : FeeAccrualError} (h : perform (.settle id) b = (.error e, b')) : b' = b := by
  unfold perform Tx.void at h
  rcases Tx.bind_error.mp h with hg | ⟨_, _, hg, h⟩
  · cases hg
  · cases hg
    rcases Tx.bind_error.mp h with hz | ⟨_, _, -, hp⟩
    · obtain ⟨p, hs, rfl⟩ := Tx.zoom_error.mp hz
      obtain rfl := settle_error hs
      exact setPosition_self _ _
    · cases hp

theorem perform_claim_error {e : FeeAccrualError} (h : perform (.claim id) b = (.error e, b')) :
    ∃ p, claim b.state (b.positions id) = (.error e, p) ∧ b.setPosition id p = b' := by
  unfold perform at h
  rcases Tx.bind_error.mp h with hg | ⟨_, _, hg, h⟩
  · cases hg
  · cases hg
    rcases Tx.bind_error.mp h with hs | ⟨_, _, -, hp⟩
    · exact Tx.zoom_error.mp hs
    · cases hp

/-- A settlement that was inserted. -/
theorem Alongside.settle_inserted (h : Alongside b c) (hp : Performs (.settle id) c c') : Alongside b c' := by
  have ht := h.twin id
  have ha : 0 ≤ c.state.accFeePerShare := h.state ▸ h.ok.acc
  have hsound : (c.positions id).Sound c.state.accFeePerShare := h.state ▸ ht.right
  rcases hp.cases with hok | ⟨e, d, herr, rfl | rfl⟩
  · obtain ⟨n, p, hs, rfl⟩ := perform_settle_ok.mp hok
    obtain rfl := settle_ok hsound.toOk ha hs
    refine h.set h.ok h.state rfl (Function.update_eq_self id _).symm (Function.update_eq_self id _).symm rfl
      (Function.update_eq_self id _).symm ?_
    rw [h.state]
    exact ht.settle_right h.ok.acc
  · rw [perform_settle_error herr]; exact h
  · exact h

/-- A claim that was inserted. -/
theorem Alongside.claim_inserted (h : Alongside b c) (hp : Performs (.claim id) c c') : Alongside b c' := by
  have ht := h.twin id
  have ha : 0 ≤ c.state.accFeePerShare := h.state ▸ h.ok.acc
  have hsound : (c.positions id).Sound c.state.accFeePerShare := h.state ▸ ht.right
  rcases hp.cases with hok | ⟨e, d, herr, rfl | rfl⟩
  · obtain ⟨n, p, hs, rfl⟩ := perform_claim_ok.mp hok
    obtain ⟨rfl, rfl⟩ := claim_ok hsound.toOk ha hs
    refine h.set h.ok h.state rfl (Function.update_eq_self id _).symm (Function.update_eq_self id _).symm rfl rfl ?_
    rw [h.state]
    exact ht.claim_right h.ok.acc
  · obtain ⟨p, hs, rfl⟩ := perform_claim_error herr
    by_cases hf : (c.positions id).Fits c.state.accFeePerShare
    · rcases claim_of_fits hsound ha hf with hc | ⟨-, e', hc⟩
      · rw [hc] at hs; cases hs
      · rw [hc] at hs
        cases hs
        refine h.set h.ok h.state rfl (Function.update_eq_self id _).symm (Function.update_eq_self id _).symm rfl
          (Function.update_eq_self id _).symm ?_
        rw [h.state]
        exact ht.settle_right h.ok.acc
    · obtain ⟨e', hc⟩ := claim_of_not_fits hsound ha hf
      rw [hc] at hs
      cases hs
      rw [setPosition_self]
      exact h
  · exact h

theorem Alongside.inserted (h : Alongside b c) (hop : op.IsSettlement) (hp : Performs op c c') : Alongside b c' := by
  cases op with
  | settle => exact h.settle_inserted hp
  | claim => exact h.claim_inserted hp
  | accrueDeposit | addShares | removeShares => exact hop.elim

/-! ### Common calls -/

theorem Alongside.settle_call (h : Alongside b c) (hb : perform (.settle id) b = (.ok (), b'))
    (hp : Performs (.settle id) c c') : Alongside b' c' := by
  have ht := h.twin id
  obtain ⟨n, p, hs, rfl⟩ := perform_settle_ok.mp hb
  obtain rfl := settle_ok ht.left.toOk h.ok.acc hs
  have hleft : Alongside (b.setPosition id ((b.positions id).settled b.state.accFeePerShare)) c :=
    h.set (h.ok.setPosition id rfl) h.state rfl rfl (Function.update_eq_self id _).symm
      (Function.update_eq_self id _).symm (Function.update_eq_self id _).symm (ht.settle_left h.ok.acc)
  exact hleft.settle_inserted hp

/-- What a claim of `id` leaves of a book. -/
def Book.paid (b : Book) (id : Nat) : Book :=
  { b.setPosition id { (b.positions id).settled b.state.accFeePerShare with realized := 0 } with
    claimed := Function.update b.claimed id (b.claimed id + owed b.state.accFeePerShare (b.positions id)) }

theorem Book.Ok.paid (h : b.Ok) (id : Nat) : (b.paid id).Ok :=
  h.setShares id { (b.positions id).settled b.state.accFeePerShare with realized := 0 } rfl (h.shares id) rfl rfl
    (by rw [show ({ (b.positions id).settled b.state.accFeePerShare with realized := 0 } : StakerFeePosition).shares
          = (b.positions id).shares from rfl, Int.sub_self]; exact (Int.add_zero _).symm)

/-- A claim of both: where nothing is left for the second, it fails there. -/
theorem Alongside.claim_call (h : Alongside b c) (hb : perform (.claim id) b = (.ok (), b'))
    (hp : Performs (.claim id) c c') : Alongside b' c' := by
  have ht := h.twin id
  have ha : 0 ≤ c.state.accFeePerShare := h.state ▸ h.ok.acc
  have hsound : (c.positions id).Sound c.state.accFeePerShare := h.state ▸ ht.right
  obtain ⟨n, p, hs, rfl⟩ := perform_claim_ok.mp hb
  have hfits : (c.positions id).Fits c.state.accFeePerShare := by
    obtain ⟨m, p₁, hset, -⟩ := Tx.bind_ok.mp hs
    rw [h.state]
    exact ht.fits (settle_fits ht.left h.ok.acc hset)
  obtain ⟨rfl, rfl⟩ := claim_ok ht.left.toOk h.ok.acc hs
  change Alongside (b.paid id) c'
  rcases claim_of_fits hsound ha hfits with hc | ⟨h0, e, hc⟩
  · have hok : perform (.claim id) c = (.ok (), c.paid id) := perform_claim_ok.mpr ⟨_, _, hc, rfl⟩
    rcases hp.cases with hres | ⟨e, d, hres, -⟩
    · rw [hok] at hres
      cases hres
      refine h.set (h.ok.paid id) h.state rfl rfl rfl rfl rfl ?_
      have hright := ht.claim_right h.ok.acc
      have hboth := hright.claim_left h.ok.acc (Twin.owed_claimed _ _)
      rw [h.state]
      exact hboth
    · rw [hok] at hres; cases hres
  · rw [h.state] at h0
    have hleft : Alongside (b.paid id) c :=
      h.set (h.ok.paid id) h.state rfl rfl rfl (Function.update_eq_self id _).symm
        (Function.update_eq_self id _).symm (ht.claim_left h.ok.acc h0)
    exact hleft.claim_inserted hp

theorem onAccount_ok {α : Type} {x : Tx Account FeeAccrualError α} {r : α} :
    onAccount id x b = (.ok r, b') ↔ ∃ a, x ⟨b.state, b.positions id⟩ = (.ok r, a) ∧
      { b with state := a.state, positions := Function.update b.positions id a.position } = b' :=
  zoom_ok

/-- The change of the shares sees the shares only. -/
theorem setShares_twin {change : Int → Except FeeAccrualError Int} {state : FeeAccrualState}
    {p q : StakerFeePosition} {a : Account} {u : Unit} (hq : q.shares = p.shares)
    (h : setShares change ⟨state, p⟩ = (.ok u, a)) :
    setShares change ⟨state, q⟩ =
      (.ok u, ⟨a.state, { q with shares := a.position.shares, feeDebt := a.position.feeDebt }⟩) := by
  obtain ⟨shares, total, debt, hs, ht, hd, rfl⟩ := setShares_ok h
  simp only [setShares, bind_gets_ok, bind_ofExcept_ok, bind_modify_ok, modify_ok]
  exact ⟨shares, hq ▸ hs, total, ht, debt, hd, rfl⟩

/-- A change of shares that succeeds on one state of a position succeeds on its twin. -/
theorem Alongside.shares_call {x : Tx Account FeeAccrualError Unit} {shares total : Int} (h : Alongside b c)
    (hs : 0 ≤ shares)
    (hx : x ⟨b.state, b.positions id⟩ = (.ok (), ⟨{ b.state with totalShares := total },
      (b.positions id).withShares b.state.accFeePerShare shares⟩))
    (hy : x ⟨b.state, c.positions id⟩ = (.ok (), ⟨{ b.state with totalShares := total },
      (c.positions id).withShares b.state.accFeePerShare shares⟩))
    (ht : total = b.state.totalShares + (shares - (b.positions id).shares))
    (hop : ∀ d, perform op d = onAccount id x d) (hb : perform op b = (.ok (), b')) (hp : Performs op c c') :
    Alongside b' c' := by
  rw [hop] at hb
  obtain ⟨a, ha, rfl⟩ := onAccount_ok.mp hb
  rw [hx] at ha
  cases ha
  obtain ⟨d, hd, hc⟩ : ∃ d, d = Book.mk { b.state with totalShares := total }
      (Function.update c.positions id ((c.positions id).withShares b.state.accFeePerShare shares)) c.claimed ∧
      perform op c = (.ok (), d) := by
    refine ⟨_, rfl, ?_⟩
    rw [hop]
    exact onAccount_ok.mpr ⟨_, by rw [h.state]; exact hy, rfl⟩
  rcases hp.cases with hres | ⟨e, d, hres, -⟩
  · rw [hc] at hres
    cases hres
    subst hd
    exact h.set (h.ok.setShares id _ rfl hs rfl rfl ht) rfl rfl rfl (Function.update_eq_self id _).symm rfl
      (Function.update_eq_self id _).symm ((h.twin id).withShares h.ok.acc hs)
  · rw [hc] at hres; cases hres

/-- A settlement followed by a change of shares, on a twin. -/
theorem settled_shares {state : FeeAccrualState} {p q : StakerFeePosition} {claimed claimed' shares total : Int}
    {change : Int → Except FeeAccrualError Int} (ht : Twin state.accFeePerShare p q claimed claimed')
    (ha : 0 ≤ state.accFeePerShare)
    (hx : (onPosition (settle state) >>= fun _ => setShares change) ⟨state, p⟩ =
      (.ok (), ⟨{ state with totalShares := total }, p.withShares state.accFeePerShare shares⟩)) :
    (onPosition (settle state) >>= fun _ => setShares change) ⟨state, q⟩ =
      (.ok (), ⟨{ state with totalShares := total }, q.withShares state.accFeePerShare shares⟩) := by
  obtain ⟨n, _, hzoom, hset⟩ := Tx.bind_ok.mp hx
  obtain ⟨p₁, hs, rfl⟩ := Tx.zoom_ok.mp hzoom
  have hfits := settle_fits ht.left ha hs
  obtain rfl := settle_ok ht.left.toOk ha hs
  obtain ⟨m, hq⟩ := settle_of_fits ht.right ha (ht.fits hfits)
  have hset' := setShares_twin (p := p.settled state.accFeePerShare) (q := q.settled state.accFeePerShare)
    ht.shares hset
  exact Tx.bind_ok.mpr ⟨m, _, Tx.zoom_ok.mpr ⟨_, hq, rfl⟩, hset'⟩

theorem Alongside.addShares_call {amount : Int} (h : Alongside b c)
    (hb : perform (.addShares id amount) b = (.ok (), b')) (hp : Performs (.addShares id amount) c c') :
    Alongside b' c' := by
  have ht := h.twin id
  obtain ⟨a, hx, -⟩ := onAccount_ok.mp hb
  obtain ⟨hpos, rfl⟩ := addShares_ok ht.left.toOk h.ok.acc hx
  have hs := ht.left.shares
  refine h.shares_call (by omega) hx ?_ (by omega) (fun _ => rfl) hb hp
  rw [addShares, bind_failIf_ok, bind_gets_ok] at hx ⊢
  exact ⟨hx.1, settled_shares ht h.ok.acc hx.2⟩

theorem Alongside.removeShares_call {amount : Int} (h : Alongside b c)
    (hb : perform (.removeShares id amount) b = (.ok (), b')) (hp : Performs (.removeShares id amount) c c') :
    Alongside b' c' := by
  have ht := h.twin id
  obtain ⟨a, hx, -⟩ := onAccount_ok.mp hb
  obtain ⟨hpos, hle, rfl⟩ := removeShares_ok ht.left.toOk h.ok.acc hx
  refine h.shares_call (by omega) hx ?_ (by omega) (fun _ => rfl) hb hp
  rw [removeShares, bind_failIf_ok, bind_gets_ok, bind_failIf_ok, bind_gets_ok] at hx ⊢
  exact ⟨hx.1, ht.shares ▸ hx.2.1, settled_shares ht h.ok.acc hx.2.2⟩

/-- A deposit sees the accumulator only, and raises the fees per share. -/
theorem Alongside.deposit_call {amount : Int} {ledgerSeq timestamp : Nat} (h : Alongside b c)
    (hb : perform (.accrueDeposit amount ledgerSeq timestamp) b = (.ok (), b'))
    (hp : Performs (.accrueDeposit amount ledgerSeq timestamp) c c') : Alongside b' c' := by
  obtain ⟨update, hz⟩ := Tx.void_ok.mp hb
  obtain ⟨state, hx, rfl⟩ := Tx.zoom_ok.mp hz
  have hc : perform (.accrueDeposit amount ledgerSeq timestamp) c = (.ok (), { c with state }) :=
    Tx.void_ok.mpr ⟨update, Tx.zoom_ok.mpr ⟨state, by rw [h.state]; exact hx, rfl⟩⟩
  obtain ⟨hpos, rfl⟩ := accrueDeposit_ok h.ok.carry h.ok.total_nonneg hx
  obtain ⟨hdelta, hle⟩ := distributed_le h.ok.carry h.ok.total_nonneg hpos
  rcases hp.cases with hres | ⟨e, d, hres, -⟩
  · rw [hc] at hres
    cases hres
    exact ⟨⟨Int.add_nonneg h.ok.acc hdelta, Int.sub_nonneg_of_le hle, h.ok.shares, h.ok.total⟩, rfl,
      fun i => (h.twin i).deposit (Int.le_add_of_nonneg_right hdelta)⟩
  · rw [hc] at hres; cases hres

theorem Alongside.call (h : Alongside b c) (hb : perform op b = (.ok (), b')) (hp : Performs op c c') :
    Alongside b' c' := by
  cases op with
  | accrueDeposit => exact h.deposit_call hb hp
  | addShares => exact h.addShares_call hb hp
  | removeShares => exact h.removeShares_call hb hp
  | settle => exact h.settle_call hb hp
  | claim => exact h.claim_call hb hp

end Calls

/-! ## Two runs -/

theorem Book.IsNew.alongside {b : Book} (h : b.IsNew) : Alongside b b := by
  have hacc : b.state.accFeePerShare = 0 := by rw [h.state]; rfl
  have hsound : ∀ id, (b.positions id).Sound b.state.accFeePerShare := by
    intro id
    rw [h.positions id, hacc]
    exact ⟨⟨Int.le_refl _, Int.le_refl _⟩, Int.le_refl _, Int.le_refl _⟩
  refine ⟨⟨hacc ▸ Int.le_refl _, ?_, fun id => (hsound id).shares, ∅, fun id _ => ?_, ?_⟩, rfl, fun id => ?_⟩
  · rw [h.state]; exact Int.le_refl _
  · rw [h.positions id]; rfl
  · rw [h.state]; rfl
  · exact ⟨hsound id, hsound id, rfl, rfl, Int.le_refl _⟩

theorem Alongside.runs {b c b' c' : Book} {ops ops' : List Op} (hi : Inserted ops ops') (h : Alongside b c)
    (hb : Succeeds b ops b') (hc : Runs c ops' c') : Alongside b' c' := by
  induction hi generalizing b c with
  | nil =>
    cases hb
    cases hc
    exact h
  | keep _ _ ih =>
    cases hb with
    | cons hop hb => cases hc with
      | cons hp hc => exact ih (h.call hop hp) hb hc
  | insert hop _ ih =>
    cases hc with
    | cons hp hc => exact ih (h.inserted hop hp) hb hc

/-- In a run with settlements and claims inserted, the accumulator and what every position claimed and has pending
are at the end as without them. -/
theorem settlement_timing {b₀ b b' : Book} {ops ops' : List Op} (hn : b₀.IsNew) (hi : Inserted ops ops')
    (hb : Succeeds b₀ ops b) (hb' : Runs b₀ ops' b') :
    b'.state = b.state ∧ ∀ id v, pending b.state (b.positions id) = .ok v →
      ∃ v', pending b'.state (b'.positions id) = .ok v' ∧ b'.claimed id + v' = b.claimed id + v := by
  have h := hn.alongside.runs hi hb hb'
  refine ⟨h.state, fun id v hv => ?_⟩
  have ht := h.twin id
  have hfits := ht.fits (pending_fits ht.left h.ok.acc hv)
  obtain rfl := pending_ok ht.left.toOk h.ok.acc hv
  refine ⟨_, ?_, ht.total⟩
  rw [h.state]
  exact pending_of_fits ht.right h.ok.acc hfits

/-! ## A claim before another deposit -/

namespace Sample

/-- No position has shares. -/
def book : Book := ⟨.new, fun _ => .new ⟨4⟩, fun _ => 0⟩

/-- Two deposits. -/
def deposits : List Op := [.addShares 0 3, .accrueDeposit 10 1 1, .accrueDeposit 10 2 2]

/-- The same with a settlement, two claims and a claim of another position between them. -/
def claims : List Op :=
  [.addShares 0 3, .accrueDeposit 10 1 1, .settle 0, .claim 0, .claim 0, .claim 1, .accrueDeposit 10 2 2]

def runAll (b : Book) (ops : List Op) : Book := ops.foldl (fun b op => (perform op b).2) b

theorem runs_runAll (b : Book) (ops : List Op) : Runs b ops (runAll b ops) := by
  induction ops generalizing b with
  | nil => exact .nil b
  | cons op ops ih => exact .cons .call (ih _)

end Sample

open Sample in
/-- With claims in between, what is claimed and pending in the end comes to the same. -/
theorem settlement_timing_claims :
    (runAll book claims).claimed 0 = 9 ∧
      ∃ v', pending (runAll book claims).state ((runAll book claims).positions 0) = .ok v' ∧
        (runAll book claims).claimed 0 + v' = (runAll book deposits).claimed 0 + 20 := by
  have hn : book.IsNew := ⟨rfl, fun _ => rfl, fun _ => rfl⟩
  have hi : Inserted deposits claims :=
    .keep _ (.keep _ (.insert trivial (.insert trivial (.insert trivial (.insert trivial (.keep _ .nil))))))
  have hb : Succeeds book deposits (runAll book deposits) := .cons rfl (.cons rfl (.cons rfl (.nil _)))
  exact ⟨by decide +kernel, (settlement_timing hn hi hb (runs_runAll _ _)).2 0 20 (by decide +kernel)⟩

end CallStake.FeeAccrual
