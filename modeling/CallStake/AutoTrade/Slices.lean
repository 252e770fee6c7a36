import CallStake.AutoTrade.Iceberg
import CallStake.Lib.Outcome

/-!
# The accounts of iceberg orders

What an order counts as filled, what its history says, and what stands on the exchange for it.

* `Sliced o u`: the amounts of an order of which `u` stands on the exchange.
* `Good`: all orders are sound; `Touches id`: a step that is about one order leaves the others as they were.
* `Accounted`: the accounts agree. `Regular`: the steps that keep them so; a last slice that is smaller than the
  others must not be filled up, and not be placed again at another price. `iceberg_accounted`: runs of such steps.
-/

namespace CallStake.Iceberg

open Tx Store List

/-! ## The property -/

/-- The orders on the exchange that stand for the iceberg. -/
def World.sdexOrders (w : World) (id : Nat) : Finset Nat :=
  w.store.sdexToIceberg.keys.toFinset.filter fun c => w.store.sdexToIceberg.lookup c = some id

/-- What of them is not filled yet. -/
def World.unfilled (w : World) (id : Nat) : Int := ∑ c ∈ w.sdexOrders id, (w.book.lookup c).elim 0 SdexOrder.unfilled

/-- The accounts of an order agree. -/
structure Accounted (w : World) (id : Nat) (o : IcebergOrder) : Prop where
  filled : o.filledAmount = ((w.store.fillsOf id).map (·.filledAmount)).sum
  bound : o.filledAmount ≤ o.totalAmount
  placed : w.unfilled id ≤ o.totalAmount - o.filledAmount
  complete : o.status = .filled ↔ o.filledAmount = o.totalAmount
  price : w.store.fillsOf id ≠ [] →
    (∃ f ∈ w.store.fillsOf id, f.price ≤ o.avgFillPrice) ∧ ∃ f ∈ w.store.fillsOf id, o.avgFillPrice ≤ f.price

/-- The order has ended. -/
def IcebergOrder.Closed (o : IcebergOrder) : Prop := o.status = .filled ∨ o.status = .cancelled

/-- Orders that are closed, with their fills, stay as they are. -/
def Frozen (w w' : World) : Prop := ∀ id o, w.store.orders.lookup id = some o → o.Closed →
  w'.store.orders.lookup id = some o ∧ w'.store.fillsOf id = w.store.fillsOf id

/-- A fill does not complete an order in a slice below the nominal one, and a new price does not place more than
remains. -/
def Regular (w : World) : Event → Prop
  | .fill _ sdexOrderId amount _ => ∀ id ∈ w.store.sdexToIceberg.lookup sdexOrderId,
    ∀ o ∈ w.store.orders.lookup id, o.filledAmount + amount = o.totalAmount →
      o.visibleAmount ≤ o.currentVisibleFilled + amount
  | .call env (.updateIcebergPrice id user newPrice) => ∀ o ∈ w.store.orders.lookup id,
    env.auth user = true → o.user = user → o.status = .active ∨ o.status = .partiallyFilled → 0 < newPrice →
      o.visibleAmount - o.currentVisibleFilled ≤ o.totalAmount - o.filledAmount
  | .call _ (.createIcebergOrder ..) | .call _ (.cancelIcebergOrder ..) | .advance _ => True

instance (w : World) : (ev : Event) → Decidable (Regular w ev)
  | .fill .. => inferInstanceAs (Decidable (∀ _ ∈ _, ∀ _ ∈ _, _))
  | .call _ (.updateIcebergPrice ..) => inferInstanceAs (Decidable (∀ _ ∈ _, _))
  | .call _ (.createIcebergOrder ..) | .call _ (.cancelIcebergOrder ..) | .advance _ =>
    inferInstanceAs (Decidable True)

/-! ## What stands on the exchange -/

/-- The order `c` on the exchange is the only one that stands for the iceberg. -/
structure Standing (w : World) (id c : Nat) (b : SdexOrder) : Prop where
  current : w.store.currentSdexOrder.lookup id = some c
  mapped : w.store.sdexToIceberg.lookup c = some id
  held : w.book.lookup c = some b
  others : ∀ c' b', c' ≠ c → w.store.sdexToIceberg.lookup c' = some id → w.book.lookup c' = some b' → b'.unfilled = 0

/-- Nothing stands for the iceberg. -/
def Idle (w : World) (id : Nat) : Prop := ∀ c b, w.store.sdexToIceberg.lookup c = some id →
  w.book.lookup c = some b → b.unfilled = 0

/-- An order is placed for the iceberg and becomes its current one. -/
def World.withPlaced (w : World) (c id : Nat) (amount : Int) : World := { w with
  book := w.book.insert c ⟨amount, 0, false⟩
  placed := c :: w.placed
  store := { w.store with
    sdexToIceberg := w.store.sdexToIceberg.insert c id
    currentSdexOrder := w.store.currentSdexOrder.insert id c } }

section Standing

variable {w : World} {id c : Nat} {b : SdexOrder}

theorem Standing.congr {w' : World} (h : Standing w id c b)
    (hcurrent : w'.store.currentSdexOrder = w.store.currentSdexOrder)
    (hmapped : w'.store.sdexToIceberg = w.store.sdexToIceberg) (hbook : w'.book = w.book) : Standing w' id c b := by
  constructor
  · rw [hcurrent]
    exact h.current
  · rw [hmapped]
    exact h.mapped
  · rw [hbook]
    exact h.held
  · rw [hmapped, hbook]
    exact h.others

theorem Standing.idle (h : Standing w id c b) (hb : b.unfilled = 0) : Idle w id := by
  intro c' b' hmap hheld
  by_cases hc : c' = c
  · subst hc
    cases h.held.symm.trans hheld
    exact hb
  · exact h.others c' b' hc hmap hheld

theorem Standing.amend (h : Standing w id c b) (f : SdexOrder → SdexOrder) : Standing (w.amend c f) id c (f b) := by
  unfold World.amend
  rw [h.held]
  refine ⟨h.current, h.mapped, AList.lookup_insert _, fun c' b' hc hmap hheld => ?_⟩
  exact h.others c' b' hc hmap ((AList.lookup_insert_ne hc).symm.trans hheld)

theorem Idle.withPlaced (h : Idle w id) (c : Nat) (amount : Int) :
    Standing (w.withPlaced c id amount) id c ⟨amount, 0, false⟩ := by
  refine ⟨AList.lookup_insert _, AList.lookup_insert _, AList.lookup_insert _, fun c' b' hc hmap hheld => ?_⟩
  exact h c' b' ((AList.lookup_insert_ne hc).symm.trans hmap) ((AList.lookup_insert_ne hc).symm.trans hheld)

/-- What stands for an iceberg is what stands in its current order. -/
theorem Standing.unfilled_eq (h : Standing w id c b) : w.unfilled id = b.unfilled := by
  have hmem : c ∈ w.sdexOrders id := by
    refine Finset.mem_filter.mpr ⟨List.mem_toFinset.mpr (AList.mem_keys.mp ?_), h.mapped⟩
    rw [← AList.lookup_isSome, h.mapped]
    rfl
  unfold World.unfilled
  rw [Finset.sum_eq_single_of_mem c hmem, h.held]
  · rfl
  · intro c' hc' hne
    cases hheld : w.book.lookup c' with
    | none => rfl
    | some b' => exact h.others c' b' hne (Finset.mem_filter.mp hc').2 hheld

end Standing

/-! ## Sound orders -/

/-- The amounts of an order, of which `unfilled` stands on the exchange. -/
structure Sliced (o : IcebergOrder) (unfilled : Int) : Prop where
  visible : 0 < o.visibleAmount
  nonneg : 0 ≤ o.filledAmount
  amounts : match o.status with
    | .active | .partiallyFilled => o.filledAmount < o.totalAmount ∧ 0 ≤ o.currentVisibleFilled ∧
      o.currentVisibleFilled < o.visibleAmount ∧
      unfilled = min (o.visibleAmount - o.currentVisibleFilled) (o.totalAmount - o.filledAmount)
    | .filled => o.filledAmount = o.totalAmount ∧ unfilled = 0
    | .cancelled => o.filledAmount < o.totalAmount ∧ unfilled = 0
    | .failed => False

/-- The fills of an order, and its average price. -/
structure Recorded (fills : List FillEvent) (o : IcebergOrder) : Prop where
  filled : o.filledAmount = (fills.map (·.filledAmount)).sum
  price : fills = [] ∨ (∃ f ∈ fills, f.price ≤ o.avgFillPrice) ∧ ∃ f ∈ fills, o.avgFillPrice ≤ f.price

/-- The fills are recorded, and one slice stands. -/
structure Sound (w : World) (id : Nat) (o : IcebergOrder) : Prop where
  recorded : Recorded (w.store.fillsOf id) o
  standing : ∃ c b, Standing w id c b ∧ Sliced o b.unfilled

/-- What of an order is on the exchange is at most what remains of it. -/
theorem Sliced.bounds {o : IcebergOrder} {u : Int} (h : Sliced o u) : o.filledAmount ≤ o.totalAmount ∧
    u ≤ o.totalAmount - o.filledAmount ∧ (o.status = .filled ↔ o.filledAmount = o.totalAmount) := by
  have hamounts := h.amounts
  cases hs : o.status <;> rw [hs] at hamounts
  case active => exact ⟨by omega, by omega, by simp; omega⟩
  case partiallyFilled => exact ⟨by omega, by omega, by simp; omega⟩
  case filled => exact ⟨by omega, by omega, by simp; omega⟩
  case cancelled => exact ⟨by omega, by omega, by simp; omega⟩
  case failed => exact hamounts.elim

theorem Sound.accounted {w : World} {id : Nat} {o : IcebergOrder} (h : Sound w id o) : Accounted w id o := by
  obtain ⟨c, b, hstanding, hsliced⟩ := h.standing
  obtain ⟨hbound, hplaced, hcomplete⟩ := hsliced.bounds
  refine ⟨h.recorded.filled, hbound, hstanding.unfilled_eq ▸ hplaced, hcomplete, fun hne => ?_⟩
  exact h.recorded.price.resolve_left hne

/-- An order of which something stands on the exchange is open. -/
theorem Sliced.open_of_pos {o : IcebergOrder} {u : Int} (h : Sliced o u) (hu : 0 < u) : ¬ o.Closed ∧
    o.filledAmount < o.totalAmount ∧ 0 ≤ o.currentVisibleFilled ∧ o.currentVisibleFilled < o.visibleAmount ∧
    u = min (o.visibleAmount - o.currentVisibleFilled) (o.totalAmount - o.filledAmount) := by
  have hamounts := h.amounts
  unfold IcebergOrder.Closed
  cases hs : o.status <;> rw [hs] at hamounts
  case active => exact ⟨by simp, hamounts⟩
  case partiallyFilled => exact ⟨by simp, hamounts⟩
  case filled => omega
  case cancelled => omega
  case failed => exact hamounts.elim

/-! ### A fill -/

/-- The order after a fill, with the average of the prices. -/
def IcebergOrder.afterFill (o : IcebergOrder) (amount price : Int) : IcebergOrder := { o with
  filledAmount := o.filledAmount + amount
  currentVisibleFilled := o.currentVisibleFilled + amount
  avgFillPrice := (o.avgFillPrice * o.filledAmount + price * amount).tdiv (o.filledAmount + amount) }

theorem Recorded.afterFill {fills : List FillEvent} {o : IcebergOrder} (h : Recorded fills o)
    (hnonneg : 0 ≤ o.filledAmount) {amount price : Int} (hamount : 0 < amount) (id : Nat) (total : Int) :
    Recorded (fills ++ [⟨id, amount, price, total⟩]) (o.afterFill amount price) := by
  constructor
  · rw [map_append, sum_append, ← h.filled]
    simp [IcebergOrder.afterFill]
  right
  have hmean := mean_between (a := o.avgFillPrice) (b := price) hnonneg hamount
  have hlast : (⟨id, amount, price, total⟩ : FillEvent) ∈ fills ++ [⟨id, amount, price, total⟩] :=
    mem_append_right _ (List.mem_singleton.mpr rfl)
  rcases h.price with hnil | ⟨⟨f, hf, hlow⟩, g, hg, hhigh⟩
  · have hzero : o.filledAmount = 0 := by rw [h.filled, hnil]; rfl
    have havg : (o.afterFill amount price).avgFillPrice = price := by
      change (o.avgFillPrice * o.filledAmount + price * amount).tdiv (o.filledAmount + amount) = price
      rw [hzero, Int.mul_zero, Int.zero_add, Int.zero_add]
      exact Int.mul_tdiv_cancel _ (by omega)
    exact ⟨⟨_, hlast, by rw [havg]⟩, _, hlast, by rw [havg]⟩
  · refine ⟨?_, ?_⟩
    · by_cases hp : o.avgFillPrice ≤ price
      · exact ⟨f, mem_append_left _ hf, by unfold IcebergOrder.afterFill; dsimp only; omega⟩
      · exact ⟨_, hlast, by unfold IcebergOrder.afterFill; dsimp only; omega⟩
    · by_cases hp : o.avgFillPrice ≤ price
      · exact ⟨_, hlast, by unfold IcebergOrder.afterFill; dsimp only; omega⟩
      · exact ⟨g, mem_append_left _ hg, by unfold IcebergOrder.afterFill; dsimp only; omega⟩

/-! ## What a call does -/

section Calls

variable {w : World} {env : Env} {id : Nat} {o : IcebergOrder}

section Primitives

variable {α : Type} {Q : α → World → Prop} {E : String → World → Prop}

theorem ends_getIcebergOrder {P : IcebergOrder → World → Prop} (he : E "Order not found" w)
    (h : ∀ o, w.store.orders.lookup id = some o → P o w) : Ends (getIcebergOrder id) P E w :=
  ends_bind (ends_gets (ends_ofOption (fun _ => he) h))

theorem ends_placeSdexLimitOrder {P : Nat → World → Prop} {sdex : Sdex} {user : Address} {pair : AssetPair}
    {side : OrderSide} {amount price : Int}
    (h : ∀ c, P c { w with book := w.book.insert c ⟨amount, 0, false⟩, placed := c :: w.placed }) :
    Ends (placeSdexLimitOrder sdex user pair side amount price) P E w :=
  ends_bind (ends_gets (ends_bind (ends_orTrap fun c _ => ends_bind (ends_modify (ends_pure (h c))))))

theorem ends_placeFor {P : Unit → World → Prop} {sdex : Sdex} {amount price : Int}
    (h : ∀ c, P () (w.withPlaced c id amount)) : Ends (placeFor sdex id o amount price) P E w :=
  ends_bind (ends_placeSdexLimitOrder fun c => ends_bind (ends_modify (ends_modify (h c))))

theorem ends_cancelCurrent {P : Unit → World → Prop} {c : Nat}
    (hcurrent : w.store.currentSdexOrder.lookup id = some c) (he : ∀ e, E e w)
    (h : P () (w.amend c fun b => { b with cancelled := true })) : Ends (cancelCurrent env id) P E w := by
  refine ends_bind (ends_gets ?_)
  rw [hcurrent]
  exact ends_bind (ends_ofExcept (fun e _ => he e) fun _ _ => ends_modify h)

end Primitives

/-- An order is stored under its id. -/
def World.withOrder (w : World) (id : Nat) (o : IcebergOrder) : World :=
  { w with store := { w.store with orders := w.store.orders.insert id o } }

def World.withFill (w : World) (id : Nat) (f : FillEvent) : World :=
  { w with store := { w.store with fillHistory := w.store.fillHistory.insert id (w.store.fillsOf id ++ [f]) } }

/-- A new order, with its first slice. -/
def World.created (w : World) (c : Nat) (o : IcebergOrder) : World :=
  (({ w with store := { w.store with orderCounter := w.store.orderCounter + 1 } } : World).withOrder
    (w.store.orderCounter + 1) o).withPlaced c (w.store.orderCounter + 1) o.visibleAmount

theorem ends_createIcebergOrder (user : Address) (pair : AssetPair) (side : OrderSide) (total : Int) (pct : Nat)
    (price : Int) :
    Ends (createIcebergOrder env user pair side total pct price)
      (fun _ w' => ∃ c o, o.status = .active ∧ o.filledAmount = 0 ∧ o.currentVisibleFilled = 0 ∧
        0 < o.visibleAmount ∧ o.visibleAmount ≤ o.totalAmount ∧ w' = w.created c o)
      (fun _ w' => w' = w) w := by
  refine ends_bind (ends_trapIf fun _ => ends_bind (ends_failIf (fun _ => rfl) fun htotal =>
    ends_bind (ends_failIf (fun _ => rfl) fun _ => ends_bind (ends_failIf (fun _ => rfl) fun hpct =>
    ends_bind (ends_orTrap fun product hproduct => ends_bind (ends_failIf (fun _ => rfl) fun hvisible =>
    ends_bind (ends_bind (ends_gets (ends_bind (ends_trapIf fun _ => ends_bind (ends_modify (ends_pure
    (ends_bind (ends_placeSdexLimitOrder fun c => ?_))))))))))))))
  obtain ⟨-, -, rfl⟩ := checked_eq_some.mp hproduct
  unfold MIN_VISIBLE_AMOUNT at hvisible
  unfold MAX_VISIBLE_PCT at hpct
  have hle : (total * (pct : Int)).tdiv BASIS_POINTS ≤ total := by
    have hprod : total * (pct : Int) ≤ total * 10000 := Int.mul_le_mul_of_nonneg_left (by omega) (by omega)
    have h0 : 0 * BASIS_POINTS ≤ total * (pct : Int) := by
      rw [Int.zero_mul]
      exact Int.mul_nonneg (by omega) (by omega)
    exact (tdiv_between (by decide) h0 hprod).2
  exact ⟨c, _, rfl, rfl, rfl, by dsimp only; omega, hle, rfl⟩

/-- How a fill ends, with the order `o` after it: the slice is full and the next one is placed, or the order is
complete, or the slice stays open. -/
inductive Filling (w : World) (id : Nat) (o : IcebergOrder) (f : FillEvent) : World → Prop
  | replenished (hfull : o.visibleAmount ≤ o.currentVisibleFilled) (hrest : o.filledAmount < o.totalAmount)
    (c : Nat) :
    Filling w id o f (((w.withFill id f).withPlaced c id
      (min (o.totalAmount - o.filledAmount) o.visibleAmount)).withOrder id
      { o with currentVisibleFilled := 0, status := .partiallyFilled })
  | complete (hfull : o.visibleAmount ≤ o.currentVisibleFilled) (hrest : o.totalAmount ≤ o.filledAmount) :
    Filling w id o f ((w.withFill id f).withOrder id { o with status := .filled })
  | begun (hopen : o.currentVisibleFilled < o.visibleAmount) :
    Filling w id o f ((w.withFill id f).withOrder id o.begun)

theorem ends_onSdexFill {sdexOrderId : Nat} {amount price : Int}
    (hmap : w.store.sdexToIceberg.lookup sdexOrderId = some id) (ho : w.store.orders.lookup id = some o) :
    Ends (onSdexFill env sdexOrderId amount price)
      (fun _ w' => ∃ total, Filling w id (o.afterFill amount price) ⟨id, amount, price, total⟩ w')
      (fun _ _ => False) w := by
  refine ends_bind (ends_bind (ends_gets ?_))
  rw [hmap]
  refine ends_ofOption nofun fun _ hid => ends_bind ?_
  cases hid
  refine ends_bind (ends_gets ?_)
  rw [ho]
  refine ends_ofOption nofun fun _ ho' => ends_bind ?_
  cases ho'
  -- the sums and products of the source, each of which may trap
  refine ends_bind (ends_orTrap fun filled hfilled => ends_bind (ends_orTrap fun visible hvisible =>
    ends_bind (ends_orTrap fun before hbefore => ends_bind (ends_orTrap fun value hvalue =>
    ends_bind (ends_orTrap fun added hadded => ends_bind (ends_orTrap fun total htotal =>
    ends_bind (ends_trapIf fun _ => ends_bind (ends_orTrap fun average haverage => ends_pure ?_))))))))
  obtain ⟨-, -, rfl⟩ := checked_eq_some.mp hfilled
  obtain ⟨-, -, rfl⟩ := checked_eq_some.mp hvisible
  obtain ⟨-, -, rfl⟩ := checked_eq_some.mp hbefore
  obtain ⟨-, -, rfl⟩ := checked_eq_some.mp hvalue
  obtain ⟨-, -, rfl⟩ := checked_eq_some.mp hadded
  obtain ⟨-, -, rfl⟩ := checked_eq_some.mp htotal
  obtain ⟨-, -, rfl⟩ := checked_eq_some.mp haverage
  rw [Int.add_sub_cancel]
  refine ends_bind (ends_bind (ends_gets (ends_bind (ends_orTrap fun sum _ => ends_modify (ends_bind ?_)))))
  refine ends_ite (fun hfull => ?_) fun hopen => ?_
  · refine ends_bind (ends_orTrap fun remaining hremaining => ?_)
    obtain ⟨-, -, rfl⟩ := checked_eq_some.mp hremaining
    refine ends_ite (fun hrest => ends_bind (ends_placeFor fun c => ends_pure (ends_modify ?_)))
      fun hrest => ends_pure (ends_modify ?_)
    · exact ⟨sum, .replenished hfull (Int.lt_of_sub_pos hrest) c⟩
    · exact ⟨sum, .complete hfull (Int.le_of_sub_nonpos (Int.not_lt.mp hrest))⟩
  · exact ends_pure (ends_modify ⟨sum, .begun (Int.not_le.mp hopen)⟩)

theorem ends_cancelIcebergOrder (user : Address)
    (hcurrent : ∀ o, w.store.orders.lookup id = some o → ∃ c, w.store.currentSdexOrder.lookup id = some c) :
    Ends (cancelIcebergOrder env id user)
      (fun _ w' => ∃ o c, w.store.orders.lookup id = some o ∧ w.store.currentSdexOrder.lookup id = some c ∧
        ¬ o.Closed ∧ w' = (w.amend c fun b => { b with cancelled := true }).withOrder id
          { o with status := .cancelled })
      (fun _ w' => w' = w) w := by
  refine ends_bind (ends_trapIf fun _ => ends_bind (ends_getIcebergOrder rfl fun o ho =>
    ends_bind (ends_failIf (fun _ => rfl) fun _ => ends_bind (ends_failIf (fun _ => rfl) fun hopen => ?_))))
  obtain ⟨c, hc⟩ := hcurrent o ho
  exact ends_bind (ends_cancelCurrent hc (fun _ => rfl) (ends_bind (ends_modify (ends_bind (ends_orTrap fun _ _ =>
    ends_pure ⟨o, c, ho, hc, hopen, rfl⟩)))))

theorem ends_updateIcebergPrice (user : Address) (newPrice : Int)
    (hcurrent : ∀ o, w.store.orders.lookup id = some o → ∃ c, w.store.currentSdexOrder.lookup id = some c) :
    Ends (updateIcebergPrice env id user newPrice)
      (fun _ w' => ∃ o c c', w.store.orders.lookup id = some o ∧ w.store.currentSdexOrder.lookup id = some c ∧
        env.auth user = true ∧ o.user = user ∧ (o.status = .active ∨ o.status = .partiallyFilled) ∧ 0 < newPrice ∧
        w' = ((w.amend c fun b => { b with cancelled := true }).withOrder id { o with price := newPrice }).withPlaced
          c' id (o.visibleAmount - o.currentVisibleFilled))
      (fun _ w' => w' = w) w := by
  refine ends_bind (ends_trapIf fun hauth => ends_bind (ends_getIcebergOrder rfl fun o ho =>
    ends_bind (ends_failIf (fun _ => rfl) fun huser => ends_bind (ends_failIf (fun _ => rfl) fun hopen =>
    ends_bind (ends_failIf (fun _ => rfl) fun hprice => ?_)))))
  obtain ⟨c, hc⟩ := hcurrent o ho
  refine ends_bind (ends_cancelCurrent hc (fun _ => rfl) (ends_bind (ends_orTrap fun visible hvisible =>
    ends_bind (ends_placeSdexLimitOrder fun c' => ?_))))
  obtain ⟨-, -, rfl⟩ := checked_eq_some.mp hvisible
  have hstatus : o.status = .active ∨ o.status = .partiallyFilled := by
    by_cases hactive : o.status = .active
    · exact .inl hactive
    · exact .inr (not_not.mp fun hp => hopen ⟨hactive, hp⟩)
  exact ⟨o, c, c', ho, hc, Bool.not_eq_false _ ▸ hauth, not_not.mp huser, hstatus, Int.not_le.mp hprice, rfl⟩

end Calls

/-! ## Steps -/

/-- A step that is about the order `id`: what the others have stays. -/
structure Touches (id : Nat) (w w' : World) : Prop where
  orders : ∀ i, i ≠ id → w'.store.orders.lookup i = w.store.orders.lookup i
  fills : ∀ i, i ≠ id → w'.store.fillsOf i = w.store.fillsOf i
  current : ∀ i, i ≠ id → w'.store.currentSdexOrder.lookup i = w.store.currentSdexOrder.lookup i
  mapped : ∀ c i, i ≠ id → (w'.store.sdexToIceberg.lookup c = some i ↔ w.store.sdexToIceberg.lookup c = some i)
  held : ∀ c i, i ≠ id → w.store.sdexToIceberg.lookup c = some i → w'.book.lookup c = w.book.lookup c

/-- The orders on the exchange are those that the contract has placed and knows the icebergs of. -/
structure Listed (w : World) : Prop where
  placed : ∀ c b, w.book.lookup c = some b → c ∈ w.placed
  mapped : ∀ c, (w.store.sdexToIceberg.lookup c).isSome = (w.book.lookup c).isSome

/-- The invariant of regular runs. -/
structure Good (w : World) : Prop where
  listed : Listed w
  counted : ∀ i o, w.store.orders.lookup i = some o → i ≤ w.store.orderCounter
  owned : ∀ c i, w.store.sdexToIceberg.lookup c = some i → ∃ o, w.store.orders.lookup i = some o
  unfilled : ∀ i, w.store.orders.lookup i = none → w.store.fillsOf i = []
  sound : ∀ i o, w.store.orders.lookup i = some o → Sound w i o

section Steps

variable {w w' w'' : World} {id c : Nat} {o : IcebergOrder}

namespace Touches

theorem trans (h : Touches id w w') (h' : Touches id w' w'') : Touches id w w'' where
  orders i hi := (h'.orders i hi).trans (h.orders i hi)
  fills i hi := (h'.fills i hi).trans (h.fills i hi)
  current i hi := (h'.current i hi).trans (h.current i hi)
  mapped c i hi := (h'.mapped c i hi).trans (h.mapped c i hi)
  held c i hi hmap := (h'.held c i hi ((h.mapped c i hi).mpr hmap)).trans (h.held c i hi hmap)

theorem withOrder (w : World) (id : Nat) (o : IcebergOrder) : Touches id w (w.withOrder id o) where
  orders _ hi := AList.lookup_insert_ne hi
  fills _ _ := rfl
  current _ _ := rfl
  mapped _ _ _ := Iff.rfl
  held _ _ _ _ := rfl

theorem withFill (w : World) (id : Nat) (f : FillEvent) : Touches id w (w.withFill id f) where
  orders _ _ := rfl
  fills i hi := by
    unfold World.withFill Storage.fillsOf
    rw [AList.lookup_insert_ne hi]
  current _ _ := rfl
  mapped _ _ _ := Iff.rfl
  held _ _ _ _ := rfl

theorem amend (hmap : w.store.sdexToIceberg.lookup c = some id) (f : SdexOrder → SdexOrder) :
    Touches id w (w.amend c f) := by
  unfold World.amend
  split
  · refine ⟨fun _ _ => rfl, fun _ _ => rfl, fun _ _ => rfl, fun _ _ _ => Iff.rfl, fun c' i hi hmap' => ?_⟩
    refine AList.lookup_insert_ne fun hc => hi ?_
    subst hc
    exact Option.some.inj (hmap'.symm.trans hmap)
  · exact ⟨fun _ _ => rfl, fun _ _ => rfl, fun _ _ => rfl, fun _ _ _ => Iff.rfl, fun _ _ _ _ => rfl⟩

theorem withPlaced (hfresh : w.store.sdexToIceberg.lookup c = none) (id : Nat) (amount : Int) :
    Touches id w (w.withPlaced c id amount) := by
  have hne : ∀ c' i, w.store.sdexToIceberg.lookup c' = some i → c' ≠ c := by
    rintro c' i hmap rfl
    cases hfresh.symm.trans hmap
  refine ⟨fun _ _ => rfl, fun _ _ => rfl, fun i hi => AList.lookup_insert_ne hi, fun c' i hi => ?_,
    fun c' i _ hmap => AList.lookup_insert_ne (hne c' i hmap)⟩
  change (w.store.sdexToIceberg.insert c id).lookup c' = some i ↔ _
  rw [lookup_insert_eq]
  split
  · rename_i hc
    rw [hc, hfresh]
    exact iff_of_false (fun h => hi (Option.some.inj h).symm) nofun
  · exact Iff.rfl

end Touches

/-- An order that a step is not about stays sound. -/
theorem Sound.touch {i : Nat} (h : Sound w i o) (hi : i ≠ id) (ht : Touches id w w') : Sound w' i o := by
  obtain ⟨c, b, hs, hsliced⟩ := h.standing
  refine ⟨(ht.fills i hi).symm ▸ h.recorded, c, b, ?_, hsliced⟩
  refine ⟨(ht.current i hi).trans hs.current, (ht.mapped c i hi).mpr hs.mapped,
    (ht.held c i hi hs.mapped).trans hs.held, fun c' b' hc hmap hheld => ?_⟩
  have hmap' := (ht.mapped c' i hi).mp hmap
  exact hs.others c' b' hc hmap' ((ht.held c' i hi hmap').symm.trans hheld)

namespace Listed

theorem amend (h : Listed w) (c : Nat) (f : SdexOrder → SdexOrder) : Listed (w.amend c f) := by
  unfold World.amend
  cases hc : w.book.lookup c with
  | none => exact h
  | some b =>
    refine ⟨fun c' b' hb => ?_, fun c' => ?_⟩
    · change (w.book.insert c (f b)).lookup c' = some b' at hb
      rw [lookup_insert_eq] at hb
      split at hb
      · rename_i heq
        exact heq ▸ h.placed c b hc
      · exact h.placed c' b' hb
    · change (w.store.sdexToIceberg.lookup c').isSome = ((w.book.insert c (f b)).lookup c').isSome
      rw [lookup_insert_eq, h.mapped]
      split
      · rename_i heq
        rw [heq, hc]
        rfl
      · rfl

theorem withPlaced (h : Listed w) (c id : Nat) (amount : Int) : Listed (w.withPlaced c id amount) := by
  refine ⟨fun c' b' hb => ?_, fun c' => ?_⟩
  · change (w.book.insert c _).lookup c' = some b' at hb
    rw [lookup_insert_eq] at hb
    split at hb
    · rename_i heq
      exact heq ▸ mem_cons_self ..
    · exact mem_cons_of_mem _ (h.placed c' b' hb)
  · change ((w.store.sdexToIceberg.insert c id).lookup c').isSome = ((w.book.insert c _).lookup c').isSome
    rw [lookup_insert_eq, lookup_insert_eq]
    split
    · rfl
    · exact h.mapped c'

/-- An order that was not placed before is not known. -/
theorem fresh (h : Listed w) (hc : c ∉ w.placed) : w.store.sdexToIceberg.lookup c = none := by
  have hbook : w.book.lookup c = none := Option.eq_none_iff_forall_ne_some.mpr fun b hb => hc (h.placed c b hb)
  have hsome := h.mapped c
  rw [hbook] at hsome
  exact Option.isNone_iff_eq_none.mp (by rw [← Option.not_isSome, hsome]; rfl)

end Listed

/-- A step that is about one open order, or a new one, and leaves it sound. -/
theorem Good.touch (h : Good w) (ht : Touches id w w') (hlisted : Listed w')
    (hopen : ∀ o, w.store.orders.lookup id = some o → ¬ o.Closed) (ho : w'.store.orders.lookup id = some o)
    (hcounter : w.store.orderCounter ≤ w'.store.orderCounter) (hid : id ≤ w'.store.orderCounter)
    (hsound : Sound w' id o) : Good w' ∧ Frozen w w' := by
  refine ⟨⟨hlisted, fun i o' ho' => ?_, fun c i hmap => ?_, fun i hi => ?_, fun i o' ho' => ?_⟩,
    fun i o' ho' hclosed => ?_⟩
  · by_cases hi : i = id
    · exact hi ▸ hid
    · exact Nat.le_trans (h.counted i o' ((ht.orders i hi).symm.trans ho')) hcounter
  · by_cases hi : i = id
    · exact ⟨o, hi ▸ ho⟩
    · obtain ⟨o', ho'⟩ := h.owned c i ((ht.mapped c i hi).mp hmap)
      exact ⟨o', (ht.orders i hi).trans ho'⟩
  · by_cases heq : i = id
    · subst heq
      cases ho.symm.trans hi
    · exact (ht.fills i heq).trans (h.unfilled i ((ht.orders i heq).symm.trans hi))
  · by_cases hi : i = id
    · subst hi
      cases ho.symm.trans ho'
      exact hsound
    · exact (h.sound i o' ((ht.orders i hi).symm.trans ho')).touch hi ht
  · by_cases hi : i = id
    · subst hi
      exact absurd hclosed (hopen o' ho')
    · exact ⟨(ht.orders i hi).trans ho', ht.fills i hi⟩

end Steps

/-! ### Each call -/

section Moves

variable {w w' : World} {id c : Nat} {o : IcebergOrder} {b : SdexOrder}

theorem amend_store (w : World) (c : Nat) (f : SdexOrder → SdexOrder) : (w.amend c f).store = w.store := by
  unfold World.amend
  split <;> rfl

theorem amend_placed (w : World) (c : Nat) (f : SdexOrder → SdexOrder) : (w.amend c f).placed = w.placed := by
  unfold World.amend
  split <;> rfl

theorem fillsOf_withFill (w : World) (id : Nat) (f : FillEvent) :
    (w.withFill id f).store.fillsOf id = w.store.fillsOf id ++ [f] := by
  unfold World.withFill Storage.fillsOf
  rw [AList.lookup_insert, Option.getD_some]

theorem Recorded.congr {fills : List FillEvent} {o' : IcebergOrder} (h : Recorded fills o)
    (hfilled : o'.filledAmount = o.filledAmount) (havg : o'.avgFillPrice = o.avgFillPrice) : Recorded fills o' := by
  constructor
  · rw [hfilled, h.filled]
  · rw [havg]
    exact h.price

theorem Good.created (h : Good w) (hc : c ∉ w.placed) (hactive : o.status = .active) (hfilled : o.filledAmount = 0)
    (hvisible : o.currentVisibleFilled = 0) (hpos : 0 < o.visibleAmount) (hle : o.visibleAmount ≤ o.totalAmount) :
    Good (w.created c o) ∧ Frozen w (w.created c o) := by
  have hnew : w.store.orders.lookup (w.store.orderCounter + 1) = none := by
    by_contra hsome
    obtain ⟨o', ho'⟩ := Option.ne_none_iff_exists'.mp hsome
    have := h.counted _ _ ho'
    omega
  have hidle : Idle w (w.store.orderCounter + 1) := by
    intro c' b' hmap
    obtain ⟨o', ho'⟩ := h.owned c' _ hmap
    cases hnew.symm.trans ho'
  have hplaced := Idle.withPlaced hidle c o.visibleAmount
  have hlisted := h.listed.withPlaced c (w.store.orderCounter + 1) o.visibleAmount
  have htouch := (Touches.withPlaced (h.listed.fresh hc) (w.store.orderCounter + 1) o.visibleAmount).trans
    (.withOrder _ _ o)
  refine h.touch (o := o) (htouch.trans ⟨fun _ _ => rfl, fun _ _ => rfl, fun _ _ => rfl, fun _ _ _ => Iff.rfl,
    fun _ _ _ _ => rfl⟩) ⟨hlisted.placed, hlisted.mapped⟩ (fun o' ho' => by cases hnew.symm.trans ho')
    (AList.lookup_insert _) (Nat.le_succ _) (Nat.le_refl _) ⟨?_, c, _, hplaced.congr rfl rfl rfl, ?_⟩
  · change Recorded (w.store.fillsOf (w.store.orderCounter + 1)) o
    rw [h.unfilled _ hnew]
    exact ⟨hfilled, .inl rfl⟩
  · refine ⟨hpos, by omega, ?_⟩
    rw [hactive]
    unfold SdexOrder.unfilled
    rw [if_neg (by nofun)]
    dsimp only
    omega

/-- A fill of an order on the exchange is one of the current order of an open iceberg. -/
theorem Good.filled_current (h : Good w) {amount : Int} (hamount : 0 < amount) (hb : w.book.lookup c = some b)
    (hcancelled : b.cancelled = false) (hle : b.filled + amount ≤ b.amount) :
    ∃ id o, w.store.sdexToIceberg.lookup c = some id ∧ w.store.orders.lookup id = some o ∧ Standing w id c b ∧
      Sliced o b.unfilled ∧ amount ≤ b.unfilled := by
  have hunfilled : b.unfilled = b.amount - b.filled := by
    unfold SdexOrder.unfilled
    rw [hcancelled]
    rfl
  obtain ⟨id, hmap⟩ : ∃ id, w.store.sdexToIceberg.lookup c = some id := by
    have hsome := h.listed.mapped c
    rw [hb] at hsome
    exact Option.isSome_iff_exists.mp hsome
  obtain ⟨o, ho⟩ := h.owned c id hmap
  obtain ⟨c', b', hstanding, hsliced⟩ := (h.sound id o ho).standing
  by_cases hc : c = c'
  · subst hc
    cases hstanding.held.symm.trans hb
    exact ⟨id, o, hmap, ho, hstanding, hsliced, by omega⟩
  · have hzero := hstanding.others c b hc hmap hb
    omega

theorem Good.filling (h : Good w) (hcancelled : b.cancelled = false)
    (hstanding : Standing w id c b) (ho : w.store.orders.lookup id = some o) (hsliced : Sliced o b.unfilled)
    {amount price total : Int} (hamount : 0 < amount) (hle : amount ≤ b.unfilled)
    (hregular : o.filledAmount + amount = o.totalAmount → o.visibleAmount ≤ o.currentVisibleFilled + amount)
    (hfilling : Filling (w.amend c fun b => { b with filled := b.filled + amount }) id (o.afterFill amount price)
      ⟨id, amount, price, total⟩ w') (hfresh : w'.placed.Nodup) : Good w' ∧ Frozen w w' := by
  obtain ⟨hopen, hlt, hnonneg, hvisible, hunfilled⟩ := hsliced.open_of_pos (by omega : 0 < b.unfilled)
  have hstanding' := hstanding.amend fun b => { b with filled := b.filled + amount }
  have hrest : SdexOrder.unfilled { b with filled := b.filled + amount } = b.unfilled - amount := by
    unfold SdexOrder.unfilled
    rw [hcancelled]
    dsimp only
    rw [if_neg Bool.false_ne_true, if_neg Bool.false_ne_true]
    omega
  have htouch := Touches.amend hstanding.mapped fun b => { b with filled := b.filled + amount }
  have hlisted := h.listed.amend c fun b => { b with filled := b.filled + amount }
  have hstore := amend_store w c fun b => { b with filled := b.filled + amount }
  have hplaced := amend_placed w c fun b => { b with filled := b.filled + amount }
  generalize w.amend c (fun b => { b with filled := b.filled + amount }) = w₁ at *
  have hrecorded : Recorded ((w₁.withFill id ⟨id, amount, price, total⟩).store.fillsOf id)
      (o.afterFill amount price) := by
    rw [fillsOf_withFill, hstore]
    exact (h.sound id o ho).recorded.afterFill hsliced.nonneg hamount id total
  have hopen' : ∀ o', w.store.orders.lookup id = some o' → ¬ o'.Closed := by
    intro o' ho'
    cases ho.symm.trans ho'
    exact hopen
  have hcounter : w.store.orderCounter ≤ w₁.store.orderCounter := by rw [hstore]
  have hid : id ≤ w₁.store.orderCounter := hstore ▸ h.counted id o ho
  have htouch' := htouch.trans (.withFill w₁ id ⟨id, amount, price, total⟩)
  cases hfilling with
  | replenished hfull hmore c' =>
    -- the slice is used up, and the next one stands under a new identifier
    change o.visibleAmount ≤ o.currentVisibleFilled + amount at hfull
    change o.filledAmount + amount < o.totalAmount at hmore
    have hc' : c' ∉ w₁.placed := (List.nodup_cons.mp hfresh).1
    have hidle := hstanding'.idle (by omega)
    have hnew : (w₁.withFill id ⟨id, amount, price, total⟩).store.sdexToIceberg.lookup c' = none := hlisted.fresh hc'
    have hlisted' := hlisted.withPlaced c' id
      (min ((o.afterFill amount price).totalAmount - (o.afterFill amount price).filledAmount) o.visibleAmount)
    refine h.touch ((htouch'.trans (.withPlaced hnew id _)).trans (.withOrder _ id _))
      ⟨hlisted'.placed, hlisted'.mapped⟩ hopen' (AList.lookup_insert _) hcounter hid
      ⟨hrecorded.congr rfl rfl, c', _, (Idle.withPlaced hidle c' _).congr rfl rfl rfl, ?_⟩
    refine ⟨hsliced.visible, Int.add_nonneg hsliced.nonneg (Int.le_of_lt hamount), hmore, Int.le_refl 0,
      hsliced.visible, ?_⟩
    unfold SdexOrder.unfilled
    rw [if_neg (by nofun)]
    dsimp only [IcebergOrder.afterFill]
    omega
  | complete hfull hdone =>
    -- nothing is left to be placed
    change o.visibleAmount ≤ o.currentVisibleFilled + amount at hfull
    change o.totalAmount ≤ o.filledAmount + amount at hdone
    refine h.touch (htouch'.trans (.withOrder _ id _)) ⟨hlisted.placed, hlisted.mapped⟩ hopen'
      (AList.lookup_insert _) hcounter hid ⟨hrecorded.congr rfl rfl, c, _, hstanding'.congr rfl rfl rfl, ?_⟩
    refine ⟨hsliced.visible, Int.add_nonneg hsliced.nonneg (Int.le_of_lt hamount), ?_⟩
    change o.filledAmount + amount = o.totalAmount ∧ _
    omega
  | begun hslice =>
    -- part of the slice is left, and so the order is not filled either (`hregular`)
    change o.currentVisibleFilled + amount < o.visibleAmount at hslice
    have hbegun : (o.afterFill amount price).begun =
        { o.afterFill amount price with status := .partiallyFilled } :=
      if_pos (Int.add_pos_of_nonneg_of_pos hsliced.nonneg hamount)
    refine h.touch (htouch'.trans (.withOrder _ id _)) ⟨hlisted.placed, hlisted.mapped⟩ hopen'
      (AList.lookup_insert _) hcounter hid ⟨?_, c, _, hstanding'.congr rfl rfl rfl, ?_⟩
    · rw [hbegun]
      exact hrecorded.congr rfl rfl
    · rw [hbegun]
      refine ⟨hsliced.visible, Int.add_nonneg hsliced.nonneg (Int.le_of_lt hamount), ?_⟩
      change o.filledAmount + amount < o.totalAmount ∧ 0 ≤ o.currentVisibleFilled + amount ∧
        o.currentVisibleFilled + amount < o.visibleAmount ∧
        _ = min (o.visibleAmount - (o.currentVisibleFilled + amount)) (o.totalAmount - (o.filledAmount + amount))
      have hmissing : o.filledAmount + amount ≠ o.totalAmount := fun heq => by have := hregular heq; omega
      omega

theorem Good.cancelled (h : Good w) (ho : w.store.orders.lookup id = some o) (hopen : ¬ o.Closed)
    (hcurrent : w.store.currentSdexOrder.lookup id = some c) :
    Good ((w.amend c fun b => { b with cancelled := true }).withOrder id { o with status := .cancelled }) ∧
    Frozen w ((w.amend c fun b => { b with cancelled := true }).withOrder id { o with status := .cancelled }) := by
  obtain ⟨c', b, hstanding, hsliced⟩ := (h.sound id o ho).standing
  cases hstanding.current.symm.trans hcurrent
  have hopen' : ∀ o', w.store.orders.lookup id = some o' → ¬ o'.Closed := by
    intro o' ho'
    cases ho.symm.trans ho'
    exact hopen
  have hlisted := h.listed.amend c fun b => { b with cancelled := true }
  have hstore := amend_store w c fun b => { b with cancelled := true }
  refine h.touch ((Touches.amend hstanding.mapped _).trans (.withOrder _ id _)) ⟨hlisted.placed, hlisted.mapped⟩
    hopen' (AList.lookup_insert _) ?_ ?_ ⟨?_, c, _, (hstanding.amend _).congr rfl rfl rfl, ?_⟩
  · change _ ≤ (w.amend c _).store.orderCounter
    rw [hstore]
  · change _ ≤ (w.amend c _).store.orderCounter
    rw [hstore]
    exact h.counted id o ho
  · change Recorded ((w.amend c _).store.fillsOf id) _
    rw [hstore]
    exact (h.sound id o ho).recorded.congr rfl rfl
  · have hamounts := hsliced.amounts
    refine ⟨hsliced.visible, hsliced.nonneg, ?_, if_pos rfl⟩
    change o.filledAmount < o.totalAmount
    unfold IcebergOrder.Closed at hopen
    cases hs : o.status <;> rw [hs] at hamounts hopen
    case active => exact hamounts.1
    case partiallyFilled => exact hamounts.1
    case filled => exact absurd (.inl rfl) hopen
    case cancelled => exact absurd (.inr rfl) hopen
    case failed => exact hamounts.elim

theorem Good.repriced (h : Good w) (ho : w.store.orders.lookup id = some o)
    (hactive : o.status = .active ∨ o.status = .partiallyFilled)
    (hcurrent : w.store.currentSdexOrder.lookup id = some c)
    (hregular : o.visibleAmount - o.currentVisibleFilled ≤ o.totalAmount - o.filledAmount) {c' : Nat}
    (hc' : c' ∉ w.placed) {newPrice : Int}
    (hw' : w' = ((w.amend c fun b => { b with cancelled := true }).withOrder id
      { o with price := newPrice }).withPlaced c' id (o.visibleAmount - o.currentVisibleFilled)) :
    Good w' ∧ Frozen w w' := by
  obtain ⟨c₀, b, hstanding, hsliced⟩ := (h.sound id o ho).standing
  cases hstanding.current.symm.trans hcurrent
  have hopen' : ∀ o', w.store.orders.lookup id = some o' → ¬ o'.Closed := by
    rintro o' ho' hclosed
    cases ho.symm.trans ho'
    rcases hactive with hs | hs <;> rcases hclosed with hs' | hs' <;> cases hs.symm.trans hs'
  have hlisted := h.listed.amend c fun b => { b with cancelled := true }
  have hstore := amend_store w c fun b => { b with cancelled := true }
  have hplaced := amend_placed w c fun b => { b with cancelled := true }
  have htouch := Touches.amend hstanding.mapped fun b => { b with cancelled := true }
  have hidle := (hstanding.amend fun b => { b with cancelled := true }).idle (if_pos rfl)
  generalize w.amend c (fun b => { b with cancelled := true }) = w₁ at *
  subst hw'
  have hnew : (w₁.withOrder id { o with price := newPrice }).store.sdexToIceberg.lookup c' = none :=
    hlisted.fresh (hplaced ▸ hc')
  have hlisted' := hlisted.withPlaced c' id (o.visibleAmount - o.currentVisibleFilled)
  refine h.touch ((htouch.trans (.withOrder _ id _)).trans (.withPlaced hnew id _))
    ⟨hlisted'.placed, hlisted'.mapped⟩ hopen' (AList.lookup_insert _) ?_ ?_
    ⟨?_, c', _, (Idle.withPlaced hidle c' _).congr rfl rfl rfl, ?_⟩
  · change _ ≤ w₁.store.orderCounter
    rw [hstore]
  · change _ ≤ w₁.store.orderCounter
    rw [hstore]
    exact h.counted id o ho
  · change Recorded (w₁.store.fillsOf id) _
    rw [hstore]
    exact (h.sound id o ho).recorded.congr rfl rfl
  · have hamounts := hsliced.amounts
    refine ⟨hsliced.visible, hsliced.nonneg, ?_⟩
    have hplacedAmount : (⟨o.visibleAmount - o.currentVisibleFilled, 0, false⟩ : SdexOrder).unfilled =
        o.visibleAmount - o.currentVisibleFilled := by
      unfold SdexOrder.unfilled
      rw [if_neg (by nofun)]
      exact Int.sub_zero _
    rw [hplacedAmount]
    dsimp only
    rcases hactive with hs | hs <;> rw [hs] at hamounts ⊢ <;> dsimp only at hamounts ⊢ <;> omega

end Moves

/-! ## Runs -/

/-- Ids are only added to those that were given. -/
def Grows (w w' : World) : Prop := w.placed <:+ w'.placed

instance : IsPreorder World Grows where
  refl w := suffix_refl w.placed
  trans _ _ _ := List.IsSuffix.trans

section Grows

theorem within_save (f : Storage → Storage) : Within Grows (save f) := ⟨fun w => suffix_refl w.placed⟩

theorem within_amend (c : Nat) (f : SdexOrder → SdexOrder) :
    Within Grows (Tx.modify fun w => w.amend c f : I Unit) :=
  ⟨fun w => by
    change w.placed <:+ (w.amend c f).placed
    rw [amend_placed]⟩

theorem within_getIcebergOrder (id : Nat) : Within Grows (getIcebergOrder id) :=
  within_bind (within_gets _) fun _ => within_ofOption _ _

theorem within_placeSdexLimitOrder (sdex : Sdex) (user : Address) (pair : AssetPair) (side : OrderSide)
    (amount price : Int) : Within Grows (placeSdexLimitOrder sdex user pair side amount price) :=
  within_bind (within_gets _) fun _ => within_bind (within_ofOption _ _) fun c =>
    within_bind ⟨fun w => suffix_cons c w.placed⟩ fun _ => within_pure _

theorem within_cancelCurrent (env : Env) (id : Nat) : Within Grows (cancelCurrent env id) := by
  refine within_bind (within_gets _) fun c => ?_
  cases c with
  | none => exact within_pure _
  | some c => exact within_bind (within_ofExcept _) fun _ => within_amend _ _

theorem within_withFill (o : IcebergOrder) (amount price : Int) : Within Grows (withFill o amount price) :=
  within_bind (within_ofOption _ _) fun _ => within_bind (within_ofOption _ _) fun _ =>
    within_bind (within_ofOption _ _) fun _ => within_bind (within_ofOption _ _) fun _ =>
    within_bind (within_ofOption _ _) fun _ => within_bind (within_ofOption _ _) fun _ =>
    within_bind (within_failIf _ _) fun _ => within_bind (within_ofOption _ _) fun _ => within_pure _

theorem within_checkSlice (env : Env) (id : Nat) (o : IcebergOrder) : Within Grows (checkSlice env id o) :=
  within_ite (within_bind (within_ofOption _ _) fun _ => within_ite
      (within_bind (within_bind (within_placeSdexLimitOrder _ _ _ _ _ _) fun _ => within_bind (within_save _) fun _ =>
        within_save _) fun _ => within_pure _)
      (within_pure _))
    (within_pure _)

theorem within_fillSdexOrder (env : Env) (c : Nat) (amount price : Int) :
    Within Grows (fillSdexOrder env c amount price) :=
  within_bind (within_amend _ _) fun _ => within_bind (within_bind (within_gets _) fun _ => within_ofOption _ _)
    fun _ => within_bind (within_getIcebergOrder _) fun _ => within_bind (within_withFill _ _ _) fun _ =>
    within_bind (within_bind (within_gets _) fun _ => within_bind (within_ofOption _ _) fun _ => within_save _)
    fun _ => within_bind (within_checkSlice _ _ _) fun _ => within_save _

theorem within_invoke (env : Env) (c : Call) : Within Grows (invoke env c) := by
  cases c with
  | createIcebergOrder =>
    refine within_void (within_bind (within_failIf _ _) fun _ => within_bind (within_failIf _ _) fun _ =>
      within_bind (within_failIf _ _) fun _ => within_bind (within_failIf _ _) fun _ =>
      within_bind (within_ofOption _ _) fun _ => within_bind (within_failIf _ _) fun _ => within_bind ?_ fun _ =>
      within_bind (within_placeSdexLimitOrder _ _ _ _ _ _) fun _ => within_bind (within_gets _) fun _ =>
      within_bind (within_save _) fun _ => within_bind (within_save _) fun _ => within_bind (within_save _) fun _ =>
      within_pure _)
    exact within_bind (within_gets _) fun _ => within_bind (within_failIf _ _) fun _ =>
      within_bind (within_save _) fun _ => within_pure _
  | cancelIcebergOrder =>
    exact within_void (within_bind (within_failIf _ _) fun _ => within_bind (within_getIcebergOrder _) fun _ =>
      within_bind (within_failIf _ _) fun _ => within_bind (within_failIf _ _) fun _ =>
      within_bind (within_cancelCurrent _ _) fun _ => within_bind (within_save _) fun _ =>
      within_bind (within_ofOption _ _) fun _ => within_pure _)
  | updateIcebergPrice =>
    exact within_bind (within_failIf _ _) fun _ => within_bind (within_getIcebergOrder _) fun _ =>
      within_bind (within_failIf _ _) fun _ => within_bind (within_failIf _ _) fun _ =>
      within_bind (within_failIf _ _) fun _ => within_bind (within_cancelCurrent _ _) fun _ =>
      within_bind (within_ofOption _ _) fun _ => within_bind (within_placeSdexLimitOrder _ _ _ _ _ _) fun _ =>
      within_bind (within_save _) fun _ => within_bind (within_save _) fun _ => within_save _

theorem grows_of_step {w w' : World} {ev : Event} (h : Step w ev w') : Grows w w' := by
  have hsettle : ∀ {α : Type} {x : I α}, Within Grows x → Grows w (x.settle w) := by
    intro α x hx
    have hmoves := hx.moves w
    unfold Tx.settle
    rcases hr : x w with ⟨(e | _) | a, w₁⟩ <;> rw [hr] at hmoves
    · exact hmoves
    · exact suffix_refl _
    · exact hmoves
  rw [h.2]
  cases ev with
  | call env c => exact hsettle (within_invoke env c)
  | fill env c amount price => exact hsettle (within_fillSdexOrder env c amount price)
  | advance => exact suffix_refl _

end Grows

theorem Frozen.refl (w : World) : Frozen w w := fun _ _ ho _ => ⟨ho, rfl⟩

theorem Frozen.trans {w w' w'' : World} (h : Frozen w w') (h' : Frozen w' w'') : Frozen w w'' := by
  intro id o ho hclosed
  obtain ⟨ho', hfills⟩ := h id o ho hclosed
  obtain ⟨ho'', hfills'⟩ := h' id o ho' hclosed
  exact ⟨ho'', hfills'.trans hfills⟩

theorem Good.step {w w' : World} {ev : Event} (h : Good w) (hstep : Step w ev w') (hregular : Regular w ev)
    (hfresh : w'.placed.Nodup) : Good w' ∧ Frozen w w' := by
  obtain ⟨hallowed, hw'⟩ := hstep
  have hcurrent : ∀ id o, w.store.orders.lookup id = some o →
      ∃ c, w.store.currentSdexOrder.lookup id = some c := by
    intro id o ho
    obtain ⟨c, b, hstanding, -⟩ := (h.sound id o ho).standing
    exact ⟨c, hstanding.current⟩
  have hstay : w' = w → Good w' ∧ Frozen w w' := by
    rintro rfl
    exact ⟨h, .refl w'⟩
  cases ev with
  | advance =>
    subst hw'
    refine ⟨⟨⟨h.listed.placed, h.listed.mapped⟩, h.counted, h.owned, h.unfilled, fun i o ho => ?_⟩,
      fun _ _ ho _ => ⟨ho, rfl⟩⟩
    obtain ⟨c, b, hstanding, hsliced⟩ := (h.sound i o ho).standing
    exact ⟨(h.sound i o ho).recorded, c, b, hstanding.congr rfl rfl rfl, hsliced⟩
  | fill env c amount price =>
    obtain ⟨hamount, b, hb, hcancelled, hle⟩ := hallowed
    obtain ⟨id, o, hmap, ho, hstanding, hsliced, hle'⟩ := h.filled_current hamount hb hcancelled hle
    have hstore := amend_store w c fun b => { b with filled := b.filled + amount }
    have hmap' := hmap
    have ho' := ho
    rw [← hstore] at hmap' ho'
    have hends : Ends (fillSdexOrder env c amount price) _ _ w := ends_bind (ends_modify (ends_onSdexFill hmap' ho'))
    rcases hends.settle with ⟨-, total, hfilling⟩ | ⟨-, hfalse⟩ | hsame
    · rw [next] at hw'
      rw [← hw'] at hfilling
      exact h.filling hcancelled hstanding ho hsliced hamount hle' (hregular id hmap o ho) hfilling hfresh
    · exact hfalse.elim
    · exact hstay (hw'.trans hsame)
  | call _ c =>
    rw [next] at hw'
    cases c with
    | createIcebergOrder user pair side total pct price =>
      rcases (ends_void (ends_createIcebergOrder user pair side total pct price)).settle with
        ⟨-, c, o, hactive, hfilled, hvisible, hpos, hle, hok⟩ | ⟨-, hsame⟩ | hsame
      · have hw := hw'.trans hok
        subst hw
        exact h.created (List.nodup_cons.mp hfresh).1 hactive hfilled hvisible hpos hle
      · exact hstay (hw'.trans hsame)
      · exact hstay (hw'.trans hsame)
    | cancelIcebergOrder id user =>
      rcases (ends_void (ends_cancelIcebergOrder user (hcurrent id))).settle with
        ⟨-, o, c, ho, hc, hopen, hok⟩ | ⟨-, hsame⟩ | hsame
      · rw [hw'.trans hok]
        exact h.cancelled ho hopen hc
      · exact hstay (hw'.trans hsame)
      · exact hstay (hw'.trans hsame)
    | updateIcebergPrice id user newPrice =>
      rcases (ends_updateIcebergPrice user newPrice (hcurrent id)).settle with
        ⟨-, o, c, c', ho, hc, hauth, huser, hactive, hprice, hok⟩ | ⟨-, hsame⟩ | hsame
      · have hw := hw'.trans hok
        have hc' : c' ∉ w.placed := by
          rw [hw] at hfresh
          have hnot := (List.nodup_cons.mp hfresh).1
          change c' ∉ (w.amend c _).placed at hnot
          rwa [amend_placed] at hnot
        exact h.repriced ho hactive hc (hregular o ho hauth huser hactive hprice) hc' hw
      · exact hstay (hw'.trans hsame)
      · exact hstay (hw'.trans hsame)

theorem good_deployed (ledger : Ledger) : Good (.deployed ledger) :=
  ⟨⟨nofun, fun _ => rfl⟩, fun _ _ ho => absurd ho lookup_empty_ne, fun _ _ hc => absurd hc lookup_empty_ne,
    fun _ _ => rfl, fun _ _ ho => absurd ho lookup_empty_ne⟩

/-- In a run in which the exchange gives every order a new id, no last slice below the nominal one is filled up and
no new price places more than remains, the accounts of every order agree, and an order that is filled or cancelled
stays as it was. -/
theorem iceberg_accounted (ledger : Ledger) {w w' : World}
    (hrun : Reaches (fun a ev b => Regular a ev ∧ Step a ev b) (.deployed ledger) w)
    (hlater : Reaches (fun a ev b => Regular a ev ∧ Step a ev b) w w') (hfresh : w'.placed.Nodup) :
    (∀ id o, w.store.orders.lookup id = some o → Accounted w id o) ∧ Frozen w w' := by
  have hgrows : Grows w w' :=
    hlater.invariant (I := fun a => Grows w a) (refl_of Grows w) fun _ _ _ h hs =>
      trans_of Grows h (grows_of_step hs.2)
  have hgood : w.placed.Nodup → Good w := by
    refine hrun.invariant (I := fun a => a.placed.Nodup → Good a) (fun _ => good_deployed ledger) ?_
    intro a ev b h hs hb
    exact ((h (hb.sublist (grows_of_step hs.2).sublist)).step hs.2 hs.1 hb).1
  have hw : Good w := hgood (hfresh.sublist hgrows.sublist)
  refine ⟨fun id o ho => (hw.sound id o ho).accounted, ?_⟩
  have hfrozen : w'.placed.Nodup → Good w' ∧ Frozen w w' := by
    refine hlater.invariant (I := fun a => a.placed.Nodup → Good a ∧ Frozen w a) (fun _ => ⟨hw, .refl w⟩) ?_
    intro a ev b h hs hb
    obtain ⟨ha, hwa⟩ := h (hb.sublist (grows_of_step hs.2).sublist)
    obtain ⟨hb', hab⟩ := ha.step hs.2 hs.1 hb
    exact ⟨hb', hwa.trans hab⟩
  exact (hfrozen hfresh).2

/-! ## What the exchange sees -/

/-- The exchange sees at most a slice of the order, in one order that is open, and nothing once it is closed. -/
structure Exposed (w : World) (id : Nat) (o : IcebergOrder) : Prop where
  slice : w.unfilled id ≤ min o.visibleAmount (o.totalAmount - o.filledAmount)
  opened : ¬ o.Closed → 0 < w.unfilled id ∧ ∃ c b, w.store.currentSdexOrder.lookup id = some c ∧
    w.book.lookup c = some b ∧ b.unfilled = w.unfilled id
  closed : o.Closed → w.unfilled id = 0

theorem Sound.exposed {w : World} {id : Nat} {o : IcebergOrder} (h : Sound w id o) : Exposed w id o := by
  obtain ⟨c, b, hstanding, hsliced⟩ := h.standing
  have heq := hstanding.unfilled_eq
  obtain ⟨hvisible, -, hamounts⟩ := hsliced
  constructor
  case slice => cases hs : o.status <;> simp only [hs] at hamounts <;> omega
  case opened =>
    intro hopen
    refine ⟨?_, c, b, hstanding.current, hstanding.held, heq.symm⟩
    cases hs : o.status <;> simp only [hs] at hamounts
    case filled => exact absurd (.inl hs) hopen
    case cancelled => exact absurd (.inr hs) hopen
    all_goals omega
  case closed =>
    rintro (hs | hs) <;> simp only [hs] at hamounts <;> omega

/-- What stands on the exchange is the current order of an iceberg that is open. -/
theorem Good.owned_of_unfilled {w : World} (h : Good w) {c : Nat} {b : SdexOrder}
    (hb : w.book.lookup c = some b) (hrest : b.unfilled ≠ 0) :
    ∃ id o, w.store.orders.lookup id = some o ∧ ¬ o.Closed ∧ w.store.currentSdexOrder.lookup id = some c := by
  have hmapped := h.listed.mapped c
  rw [hb] at hmapped
  obtain ⟨id, hid⟩ := Option.isSome_iff_exists.mp hmapped
  obtain ⟨o, ho⟩ := h.owned c id hid
  obtain ⟨c', b', hstanding, -⟩ := (h.sound id o ho).standing
  have hc : c = c' := by
    by_contra hne
    exact hrest (hstanding.others c b hne hid hb)
  subst hc
  cases hb.symm.trans hstanding.held
  refine ⟨id, o, ho, fun hclosed => hrest ?_, hstanding.current⟩
  rw [← hstanding.unfilled_eq]
  exact (h.sound id o ho).exposed.closed hclosed

/-- In such a run the exchange never sees more of an order than one slice of it, it sees some of every order
that is open and nothing of one that is closed, and all that stands there stands for an order that is open. -/
theorem slices_exposed (ledger : Ledger) {w : World}
    (hrun : Reaches (fun a ev b => Regular a ev ∧ Step a ev b) (.deployed ledger) w) (hfresh : w.placed.Nodup) :
    (∀ id o, w.store.orders.lookup id = some o → Exposed w id o) ∧
      ∀ c b, w.book.lookup c = some b → b.unfilled ≠ 0 →
        ∃ id o, w.store.orders.lookup id = some o ∧ ¬ o.Closed ∧ w.store.currentSdexOrder.lookup id = some c := by
  have hgood : w.placed.Nodup → Good w := by
    refine hrun.invariant (I := fun a => a.placed.Nodup → Good a) (fun _ => good_deployed ledger) ?_
    intro a ev b h hs hb
    exact ((h (hb.sublist (grows_of_step hs.2).sublist)).step hs.2 hs.1 hb).1
  have hw := hgood hfresh
  exact ⟨fun id o ho => (hw.sound id o ho).exposed, fun _ _ => hw.owned_of_unfilled⟩

namespace Sample

def env : Env := ⟨fun _ => true, .placeholder⟩

def alice : Address := ⟨1⟩

def ledger : Ledger := ⟨1000, 10⟩

/-- An order of Alice at the price 1. Its slices get the ids that the placeholder of the exchange gives. -/
def creating (total : Int) (pct : Nat) : Event :=
  .call env (.createIcebergOrder alice ⟨"XLM", "USDC"⟩ .buy total pct 1)

def run (l : List Event) : World := l.foldl next (.deployed ledger)

/-- Two slices of 1000. -/
def even : List Event := [creating 2000 5000, .advance ⟨1001, 11⟩, .fill env 2001 1000 1, .fill env 2002 1000 3]

/-- Both slices are filled, at an average price of 2. -/
theorem even_accounted : ∃ o, (run even).store.orders.lookup 1 = some o ∧ o.status = .filled ∧ o.avgFillPrice = 2 ∧
    Accounted (run even) 1 o := by
  have hrun : Reaches (fun a ev b => Regular a ev ∧ Step a ev b) (.deployed ledger) (run even) :=
    Reaches.of_along_and (by decide +kernel)
  have haccounted := (iceberg_accounted ledger hrun (.refl _) (by decide +kernel)).1
  obtain ⟨o, ho, hvalues⟩ := Option.map_eq_some_iff.mp (by decide +kernel :
    ((run even).store.orders.lookup 1).map (fun o => (o.status, o.avgFillPrice)) = some (.filled, 2))
  obtain ⟨hstatus, havg⟩ := Prod.mk.inj hvalues
  exact ⟨o, ho, hstatus, havg, haccounted 1 o ho⟩

/-- Of an order of 2000 in slices of 1000, the exchange sees what is left of the first slice. -/
theorem first_slice_exposed : (run (even.take 2 ++ [.fill env 2001 400 1])).unfilled 1 = 600 ∧
    ∀ o, (run (even.take 2 ++ [.fill env 2001 400 1])).store.orders.lookup 1 = some o →
      Exposed (run (even.take 2 ++ [.fill env 2001 400 1])) 1 o := by
  have hrun : Reaches (fun a ev b => Regular a ev ∧ Step a ev b) (.deployed ledger)
      (run (even.take 2 ++ [.fill env 2001 400 1])) := Reaches.of_along_and (by decide +kernel)
  exact ⟨by decide +kernel, (slices_exposed ledger hrun (by decide +kernel)).1 1⟩

/-- Two slices of 1000 and one of 500. -/
def uneven : List Event :=
  [creating 2500 4000, .advance ⟨1001, 11⟩, .fill env 2001 1000 1, .advance ⟨1002, 12⟩, .fill env 2002 1000 1]

/-- The last slice is filled up, and is placed again at another price. -/
def filledUp : List Event := uneven ++ [.fill env 1503 500 1]

def repriced : List Event := uneven ++ [.advance ⟨1003, 13⟩, .call env (.updateIcebergPrice 1 alice 2)]

def overfilled : List Event := repriced ++ [.fill env 2005 1000 2]

/-- An order whose last slice is smaller is not complete when it is filled; and when the price is changed, more is
placed and filled than remains. -/
theorem last_slice_miscounted :
    (∀ l ∈ [filledUp, repriced, overfilled], Reaches Step (.deployed ledger) (run l) ∧ (run l).placed.Nodup ∧
      ¬ ∀ id o, (run l).store.orders.lookup id = some o → Accounted (run l) id o) ∧
    ((run filledUp).store.orders.lookup 1).map (fun o => (o.filledAmount, o.status)) = some (2500, .partiallyFilled) ∧
    ((run repriced).unfilled 1, ((run repriced).store.orders.lookup 1).map (·.filledAmount)) = (1000, some 2000) ∧
    ((run overfilled).store.orders.lookup 1).map (·.filledAmount) = some 3000 := by
  have hreaches : ∀ l, Reaches.Along next Allowed (.deployed ledger) l → Reaches Step (.deployed ledger) (run l) :=
    fun l h => Reaches.of_along h
  refine ⟨fun l hl => ?_, by decide +kernel, by decide +kernel, by decide +kernel⟩
  simp at hl
  rcases hl with rfl | rfl | rfl
  · refine ⟨hreaches _ (by decide +kernel), by decide +kernel, fun h => ?_⟩
    obtain ⟨o, ho, hvalues⟩ := Option.map_eq_some_iff.mp (by decide +kernel :
      ((run filledUp).store.orders.lookup 1).map (fun o => (o.filledAmount - o.totalAmount, o.status)) =
        some (0, .partiallyFilled))
    obtain ⟨hfull, hstatus⟩ := Prod.mk.inj hvalues
    have hcomplete := (h 1 o ho).complete.mpr (Int.sub_eq_zero.mp hfull)
    rw [hstatus] at hcomplete
    cases hcomplete
  · refine ⟨hreaches _ (by decide +kernel), by decide +kernel, fun h => ?_⟩
    obtain ⟨o, ho, hrest⟩ := Option.map_eq_some_iff.mp (by decide +kernel :
      ((run repriced).store.orders.lookup 1).map (fun o => o.totalAmount - o.filledAmount) = some 500)
    have hplaced := (h 1 o ho).placed
    rw [hrest] at hplaced
    exact absurd hplaced (by decide +kernel)
  · refine ⟨hreaches _ (by decide +kernel), by decide +kernel, fun h => ?_⟩
    obtain ⟨o, ho, hexcess⟩ := Option.map_eq_some_iff.mp (by decide +kernel :
      ((run overfilled).store.orders.lookup 1).map (fun o => o.filledAmount - o.totalAmount) = some 500)
    have hbound := (h 1 o ho).bound
    omega

end Sample

end CallStake.Iceberg
