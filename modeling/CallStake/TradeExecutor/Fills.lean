import CallStake.Lib.Trace
import CallStake.TradeExecutor.Settlement

/-!
# The accounts of settlement orders

The totals of an order, its fill records and the index of its user are separate entries. They agree in every run,
since each is a function of the fills that were accepted.

* `journal id hist`: the fills of an order that were accepted in a run, in their order.
* `Sound`: how the totals of an order follow from its journal. `recordAt`: its fill records.
* `Inv`: the storage is given by the journals; `Inv.step`: a step keeps it.
* `settlement_accounted`: what follows for every order in every run.
-/

namespace CallStake.Settlement

open Tx Store List

/-! ## The journal of an order -/

/-- A fill that was accepted, with the input it took. -/
structure Fill where
  amount : Int
  input : Int
  price : Int
  ledger : Nat

/-- The fill of the order that an event records, if any. -/
def fillOf (id : Nat) (w : World) : Event → List Fill
  | .call (.settleBatch id' amount input price) =>
    if id' = id ∧ (invoke (.settleBatch id' amount input price) w).1.isOk = true then
      [⟨amount, input, price, w.ledger.sequence⟩]
    else []
  | .call (.createSettlementOrder ..) | .call (.failSettlementOrder _) | .advance _ => []

/-- The fills of the order in a run. -/
def journal (id : Nat) : List (World × Event) → List Fill
  | [] => []
  | (w, ev) :: hist => journal id hist ++ fillOf id w ev

theorem length_journal_le (id : Nat) (hist : List (World × Event)) : (journal id hist).length ≤ hist.length := by
  induction hist with
  | nil => exact le_rfl
  | cons e hist ih =>
    obtain ⟨w, ev⟩ := e
    have hone : (fillOf id w ev).length ≤ 1 := by
      unfold fillOf
      split
      · split <;> simp
      all_goals simp
    rw [journal, length_append, length_cons]
    omega

/-! ## The property -/

/-- The sum of the first fill records of the order. -/
def Storage.filled (s : Storage) (id count : Nat) : Int :=
  ((List.range count).map fun i => (s.fills.lookup (id, i + 1)).elim 0 (·.filledAmount)).sum

/-- The orders of the user, in the order of their ids. -/
def Storage.createdBy (s : Storage) (user : Address) : List Nat :=
  (List.range' 1 (s.nextOrderId - 1)).filter fun id => (s.orders.lookup id).any (·.user = user)

structure OrderAccounted (s : Storage) (id : Nat) (o : SettlementOrder) (fills : List Fill) : Prop where
  settled : o.settledAmount = s.filled id o.fillCount
  stored : ∀ i, (s.fills.lookup (id, i)).isSome = true ↔ 1 ≤ i ∧ i ≤ o.fillCount
  range : 0 ≤ o.settledAmount ∧ o.settledAmount ≤ o.requestedAmount
  full : o.status = .fullySettled ↔ o.settledAmount = o.requestedAmount
  final : ∀ i r, s.fills.lookup (id, i) = some r → (r.isFinal = true ↔ o.status = .fullySettled ∧ i = o.fillCount)
  last : o.status = .fullySettled → 1 ≤ o.fillCount
  bounds : ∀ i r, s.fills.lookup (id, i) = some r → ∃ f, fills[i - 1]? = some f ∧ r.filledAmount = f.amount ∧
    r.executionPrice = f.price ∧ o.minOutput ≤ r.filledAmount ∧ f.input ≤ o.maxInput

/-- The order and its fill records are the same. -/
structure Frozen (id : Nat) (s s' : Storage) : Prop where
  order : s'.orders.lookup id = s.orders.lookup id
  fills : ∀ i, s'.fills.lookup (id, i) = s.fills.lookup (id, i)

/-! ## What a call does -/

section Calls

variable {w w' : World}

theorem loadOrder_bind_ok {β : Type} {b : β} {id : Nat} {k : SettlementOrder → S β} :
    (loadOrder id >>= k) w = (.ok b, w') ↔ ∃ o, w.store.orders.lookup id = some o ∧ k o w = (.ok b, w') := by
  rw [loadOrder, bind_assoc_eq, bind_gets_ok, bind_ofOption_ok]

theorem createSettlementOrder_ok {user : Address} {amount : Int} {slippage : SlippageBounds} {id : Nat}
    (h : createSettlementOrder user amount slippage w = (.ok id, w')) :
    0 < amount ∧ id = w.store.nextOrderId ∧ w' = { w with store := { w.store with
      nextOrderId := id + 1
      orders := w.store.orders.insert id
        ⟨id, user, amount, 0, .opened, 0, w.ledger.sequence, 0, slippage.minOutput, slippage.maxInput⟩
      userOrders := w.store.userOrders.insert user (w.store.ordersOf user ++ [id]) } } := by
  rw [createSettlementOrder, bind_failIf_ok, bind_failIf_ok, nextOrderId] at h
  simp [bind_assoc_eq, save, saveOrder, appendUserOrder, pure_bind_eq] at h
  obtain ⟨hamount, -, -, rfl, rfl⟩ := h
  exact ⟨by omega, rfl, rfl⟩

theorem settleBatch_ok {id : Nat} {fill input price : Int} {r : BatchSettlementResult}
    (h : settleBatch id fill input price w = (.ok r, w')) :
    ∃ o, w.store.orders.lookup id = some o ∧ o.isClosed = false ∧ 0 ≤ fill ∧ o.minOutput ≤ fill ∧
      input ≤ o.maxInput ∧ fill ≤ o.remaining ∧ w' = { w with store := { w.store with
        fills := w.store.fills.insert (id, (o.withFill fill w.ledger.sequence).fillCount)
          ⟨(o.withFill fill w.ledger.sequence).fillCount, fill, price, w.ledger.sequence,
            decide ((o.withFill fill w.ledger.sequence).remaining = 0)⟩
        orders := w.store.orders.insert o.orderId (o.withFill fill w.ledger.sequence) } } := by
  rw [settleBatch, bind_failIf_ok, loadOrder_bind_ok] at h
  obtain ⟨hneg, o, ho, h⟩ := h
  simp only [bind_failIf_ok, bind_gets_ok, saveFill, saveOrder, save, bind_modify_ok, pure_ok] at h
  obtain ⟨hclosed, hslip, hremaining, -, rfl⟩ := h
  exact ⟨o, ho, Bool.eq_false_iff.mpr hclosed, by omega, by omega, by omega, by omega, rfl⟩

theorem failSettlementOrder_ok {id : Nat} {u : Unit} (h : failSettlementOrder id w = (.ok u, w')) :
    ∃ o, w.store.orders.lookup id = some o ∧ o.isClosed = false ∧ w' = { w with store := { w.store with
      orders := w.store.orders.insert o.orderId { o with status := .failed } } } := by
  rw [failSettlementOrder, loadOrder_bind_ok] at h
  obtain ⟨o, ho, h⟩ := h
  rw [bind_failIf_ok, saveOrder, save, modify_ok] at h
  exact ⟨o, ho, Bool.eq_false_iff.mpr h.1, h.2.symm⟩

theorem reads_loadOrder (id : Nat) : Tx.Reads (loadOrder id) := reads_bind (reads_gets _) fun _ => reads_ofOption _ _

/-- An error comes before the first write. -/
theorem invoke_clean (c : Call) : Tx.Clean (invoke c) := by
  cases c with
  | createSettlementOrder =>
    refine clean_void (clean_bind (reads_failIf _ _) fun _ => clean_bind (reads_failIf _ _) fun _ => ?_)
    simp only [nextOrderId, bind_assoc_eq]
    exact clean_bind (reads_gets _) fun _ => clean_bind (reads_failIf _ _) fun _ =>
      clean_of_total fun s e s' h => by cases h
  | settleBatch =>
    exact clean_void (clean_bind (reads_failIf _ _) fun _ => clean_bind (reads_loadOrder _) fun _ =>
      clean_bind (reads_failIf _ _) fun _ => clean_bind (reads_failIf _ _) fun _ =>
      clean_bind (reads_failIf _ _) fun _ => clean_bind (reads_gets _) fun _ =>
      clean_of_total fun s e s' h => by cases h)
  | failSettlementOrder =>
    exact clean_bind (reads_loadOrder _) fun _ => clean_bind (reads_failIf _ _) fun _ =>
      clean_of_total fun s e s' h => by cases h

end Calls

/-! ## The accounts follow from the journal -/

/-- The totals of an order with the given fills. -/
structure Sound (o : SettlementOrder) (fills : List Fill) : Prop where
  positive : 0 < o.requestedAmount
  fits : o.requestedAmount ≤ i128Max
  count : o.fillCount = fills.length
  settled : o.settledAmount = (fills.map (·.amount)).sum
  nonneg : 0 ≤ o.settledAmount
  within : o.settledAmount ≤ o.requestedAmount
  full : o.status = .fullySettled ↔ o.settledAmount = o.requestedAmount
  bounds : ∀ f ∈ fills, o.minOutput ≤ f.amount ∧ f.input ≤ o.maxInput

/-- The fill record at an index. Only the last one of an order that is full is final. -/
def recordAt (full : Bool) (fills : List Fill) : Nat → Option FillRecord
  | 0 => none
  | i + 1 => fills[i]?.map fun f => ⟨i + 1, f.amount, f.price, f.ledger, full && decide (i + 1 = fills.length)⟩

/-- Whether the order is full. -/
def Storage.isFull (s : Storage) (id : Nat) : Bool := (s.orders.lookup id).any (·.status = .fullySettled)

section Sound

variable {o : SettlementOrder} {fills : List Fill} {fill : Int} {ledger : Nat}

theorem Sound.remaining_eq (h : Sound o fills) : o.remaining = o.requestedAmount - o.settledAmount := by
  have := h.nonneg
  have := h.within
  rw [SettlementOrder.remaining, saturatingSub_part h.nonneg h.within h.fits]
  omega

/-- A fill within what remains adds to the totals. -/
theorem Sound.withFill_eq (h : Sound o fills) (hfill : 0 ≤ fill) (hle : fill ≤ o.remaining)
    (hcount : o.fillCount < u32Max) : o.withFill fill ledger = { o with
      settledAmount := o.settledAmount + fill
      fillCount := o.fillCount + 1
      lastFillLedger := ledger
      status := if o.settledAmount + fill = o.requestedAmount then .fullySettled else .partiallyFilled } := by
  rw [h.remaining_eq] at hle
  have hnonneg := h.nonneg
  have hfits := h.fits
  have hadd : checkedAdd o.settledAmount fill = some (o.settledAmount + fill) := by
    rw [checkedAdd_eq_some]
    unfold i128Min
    omega
  have hinc : u32Add o.fillCount 1 = o.fillCount + 1 := Nat.min_eq_left hcount
  have hsub : saturatingSub o.requestedAmount (o.settledAmount + fill) = o.requestedAmount - (o.settledAmount + fill) :=
    saturatingSub_part (by omega) (by omega) hfits
  simp only [SettlementOrder.withFill, hadd, hinc, Option.getD_some, SettlementOrder.remaining, hsub]
  congr 1
  refine if_congr ?_ rfl rfl
  omega

/-- A fill within what remains and the bounds keeps the totals sound. -/
theorem Sound.withFill (h : Sound o fills) {f : Fill} (hfill : 0 ≤ f.amount) (hle : f.amount ≤ o.remaining)
    (hmin : o.minOutput ≤ f.amount) (hmax : f.input ≤ o.maxInput) (hcount : o.fillCount < u32Max) :
    Sound (o.withFill f.amount ledger) (fills ++ [f]) := by
  rw [h.withFill_eq hfill hle hcount]
  rw [h.remaining_eq] at hle
  have hnonneg := h.nonneg
  refine ⟨h.positive, h.fits, ?_, ?_, ?_, ?_, ?_, ?_⟩
  · rw [length_append, length_singleton, ← h.count]
  · rw [map_append, sum_append, map_singleton, sum_singleton, ← h.settled]
  · exact Int.add_nonneg hnonneg hfill
  · show o.settledAmount + f.amount ≤ o.requestedAmount
    omega
  · show (if _ then _ else _) = _ ↔ _
    split
    · rename_i heq
      exact iff_of_true rfl heq
    · rename_i hne
      exact iff_of_false (by simp) hne
  · intro g hg
    rcases List.mem_append.mp hg with hg | hg
    · exact h.bounds g hg
    · rw [List.mem_singleton.mp hg]
      exact ⟨hmin, hmax⟩

theorem Sound.fail (h : Sound o fills) (hopen : o.isClosed = false) : Sound { o with status := .failed } fills := by
  refine ⟨h.positive, h.fits, h.count, h.settled, h.nonneg, h.within, ?_, h.bounds⟩
  refine iff_of_false (by simp) fun heq => ?_
  rw [SettlementOrder.isClosed, h.full.mpr heq] at hopen
  cases hopen

theorem recordAt_append {full : Bool} {f : Fill} {i : Nat} : recordAt full (fills ++ [f]) i =
    if i = fills.length + 1 then some ⟨i, f.amount, f.price, f.ledger, full⟩ else recordAt false fills i := by
  cases i with
  | zero => simp [recordAt]
  | succ i =>
    simp [recordAt]
    split
    · rename_i heq
      subst heq
      simp
    · rename_i hne
      rw [decide_eq_false hne, Bool.and_false]
      rcases Nat.lt_or_gt_of_ne hne with hlt | hgt
      · rw [List.getElem?_append_left hlt]
      · rw [List.getElem?_eq_none (by simp; omega), List.getElem?_eq_none (by omega)]

end Sound

/-! ## The invariant -/

/-- The storage follows from the journals. -/
structure Inv (hist : List (World × Event)) (s : Storage) : Prop where
  ids : ∀ id, (s.orders.lookup id).isSome = true ↔ 1 ≤ id ∧ id < s.nextOrderId
  first : 1 ≤ s.nextOrderId
  orders : ∀ id o, s.orders.lookup id = some o → o.orderId = id ∧ Sound o (journal id hist)
  fresh : ∀ id, s.orders.lookup id = none → journal id hist = []
  records : ∀ id i, s.fills.lookup (id, i) = recordAt (s.isFull id) (journal id hist) i
  listed : ∀ user, s.ordersOf user = s.createdBy user

section Invariant

variable {hist hist' : List (World × Event)} {s s' : Storage}

theorem createdBy_congr {user : Address} (hnext : s'.nextOrderId = s.nextOrderId)
    (husers : ∀ id, (s'.orders.lookup id).map (·.user) = (s.orders.lookup id).map (·.user)) :
    s'.createdBy user = s.createdBy user := by
  rw [Storage.createdBy, Storage.createdBy, hnext]
  refine filter_congr fun id _ => ?_
  have hany := congrArg (Option.any (decide <| · = user)) (husers id)
  simpa only [Option.any_map] using hany

theorem Inv.init : Inv [] Storage.deployed where
  ids id := iff_of_false (by simp [Storage.deployed]) (by simp only [Storage.deployed]; omega)
  first := le_rfl
  orders id o ho := by simp [Storage.deployed] at ho
  fresh _ _ := rfl
  records id i := by cases i <;> rfl
  listed _ := rfl

/-- The storage and the journals are the same. -/
theorem Inv.same (h : Inv hist s) (hj : ∀ id, journal id hist' = journal id hist) : Inv hist' s where
  ids := h.ids
  first := h.first
  orders id o ho := by rw [hj]; exact h.orders id o ho
  fresh id ho := by rw [hj]; exact h.fresh id ho
  records id i := by rw [hj]; exact h.records id i
  listed := h.listed

/-- A new order, with an empty journal. -/
theorem Inv.create (h : Inv hist s) (hj : ∀ id, journal id hist' = journal id hist) {o : SettlementOrder}
    (hid : o.orderId = s.nextOrderId) (hsound : Sound o []) : Inv hist' { s with
      nextOrderId := s.nextOrderId + 1
      orders := s.orders.insert s.nextOrderId o
      userOrders := s.userOrders.insert o.user (s.ordersOf o.user ++ [s.nextOrderId]) } := by
  have hfirst := h.first
  have hnone : s.orders.lookup s.nextOrderId = none := by
    rw [← Option.not_isSome_iff_eq_none, h.ids]
    omega
  refine ⟨fun id => ?_, Nat.le_succ_of_le hfirst, fun id o' ho' => ?_, fun id hn => ?_, fun id i => ?_, fun user => ?_⟩
  · have := h.ids id
    rw [lookup_insert_eq]
    split
    · rename_i heq
      subst heq
      simp
      omega
    · rw [this]
      show _ ↔ 1 ≤ id ∧ id < s.nextOrderId + 1
      omega
  · rw [lookup_insert_eq] at ho'
    rw [hj]
    split at ho'
    · rename_i heq
      cases ho'
      subst heq
      rw [h.fresh _ hnone]
      exact ⟨hid, hsound⟩
    · exact h.orders id o' ho'
  · rw [lookup_insert_eq] at hn
    split at hn
    · cases hn
    · rw [hj]
      exact h.fresh id hn
  · rw [h.records, hj]
    by_cases heq : id = s.nextOrderId
    · subst heq
      rw [h.fresh _ hnone]
      cases i <;> rfl
    · rw [Storage.isFull, Storage.isFull, lookup_insert_eq, if_neg heq]
  · -- identifiers are handed out in order, so the list of the user ends with the new one
    have hrange : List.range' 1 (s.nextOrderId + 1 - 1) = List.range' 1 (s.nextOrderId - 1) ++ [s.nextOrderId] := by
      obtain ⟨n, hn⟩ : ∃ n, s.nextOrderId = n + 1 := ⟨s.nextOrderId - 1, by omega⟩
      rw [hn, Nat.add_sub_cancel, Nat.add_sub_cancel, List.range'_1_concat, Nat.add_comm 1 n]
    have hold : (List.range' 1 (s.nextOrderId - 1)).filter
        (fun id => ((s.orders.insert s.nextOrderId o).lookup id).any (·.user = user)) = s.createdBy user := by
      refine filter_congr fun id hmem => ?_
      obtain ⟨-, hlt⟩ := List.mem_range'_1.mp hmem
      rw [lookup_insert_eq, if_neg (by omega)]
    rw [Storage.createdBy, hrange, filter_append, hold, ← h.listed user, Storage.ordersOf, lookup_insert_eq]
    by_cases heq : user = o.user
    · subst heq
      simp [Storage.ordersOf, lookup_insert_eq]
    · rw [if_neg heq]
      simp [lookup_insert_eq, Storage.ordersOf, Ne.symm heq]

/-- An order is replaced by another of the same user, with its records. -/
theorem Inv.update (h : Inv hist s) {id : Nat} {o o' : SettlementOrder} (ho : s.orders.lookup id = some o)
    (hsound : Sound o' (journal id hist')) (hid : o'.orderId = id) (huser : o'.user = o.user)
    (hother : ∀ id', id' ≠ id → journal id' hist' = journal id' hist) {fills : Store (Nat × Nat) FillRecord}
    (hrecords : ∀ i, fills.lookup (id, i) = recordAt (decide (o'.status = .fullySettled)) (journal id hist') i)
    (hrest : ∀ id' i, id' ≠ id → fills.lookup (id', i) = s.fills.lookup (id', i)) :
    Inv hist' { s with fills, orders := s.orders.insert id o' } := by
  have hsome : (s.orders.lookup id).isSome = true := by rw [ho]; rfl
  refine ⟨fun id' => ?_, h.first, fun id' o'' ho'' => ?_, fun id' hn => ?_, fun id' i => ?_, fun user => ?_⟩
  · rw [← h.ids id', lookup_insert_eq]
    split
    · rename_i heq
      rw [heq, hsome, Option.isSome_some]
    · exact Iff.rfl
  · rw [lookup_insert_eq] at ho''
    split at ho''
    · rename_i heq
      cases ho''
      subst heq
      exact ⟨hid, hsound⟩
    · rename_i hne
      rw [hother id' hne]
      exact h.orders id' o'' ho''
  · rw [lookup_insert_eq] at hn
    split at hn
    · cases hn
    · rename_i hne
      rw [hother id' hne]
      exact h.fresh id' hn
  · by_cases heq : id' = id
    · subst heq
      rw [hrecords, Storage.isFull, lookup_insert_eq, if_pos rfl, Option.any_some]
    · rw [hrest id' i heq, h.records, hother id' heq, Storage.isFull, Storage.isFull, lookup_insert_eq, if_neg heq]
  · refine (h.listed user).trans (Eq.symm (createdBy_congr (s := s) rfl fun id' => ?_))
    show ((s.orders.insert id o').lookup id').map _ = _
    rw [lookup_insert_eq]
    split
    · rename_i heq
      rw [heq, ho, Option.map_some, Option.map_some, huser]
    · rfl

end Invariant

/-! ## Steps -/

section Steps

variable {w w' : World} {ev : Event} {hist : List (World × Event)}

/-- What a step does to the storage, and to the journals. -/
inductive Move (w : World) : Event → World → Prop where
  | same {ev : Event} {w' : World} (store : w'.store = w.store) (hfill : ∀ id, fillOf id w ev = []) : Move w ev w'
  | created {user : Address} {amount : Int} {slippage : SlippageBounds} {w' : World} (hpos : 0 < amount)
    (hfits : amount ≤ i128Max) (store : w'.store = { w.store with
      nextOrderId := w.store.nextOrderId + 1
      orders := w.store.orders.insert w.store.nextOrderId ⟨w.store.nextOrderId, user, amount, 0, .opened, 0,
        w.ledger.sequence, 0, slippage.minOutput, slippage.maxInput⟩
      userOrders := w.store.userOrders.insert user (w.store.ordersOf user ++ [w.store.nextOrderId]) }) :
    Move w (.call (.createSettlementOrder user amount slippage)) w'
  | filled {id : Nat} {o : SettlementOrder} {f : Fill} {w' : World} (ho : w.store.orders.lookup id = some o)
    (hopen : o.isClosed = false) (hfill : 0 ≤ f.amount) (hmin : o.minOutput ≤ f.amount)
    (hmax : f.input ≤ o.maxInput) (hle : f.amount ≤ o.remaining) (hledger : f.ledger = w.ledger.sequence)
    (hof : ∀ id', fillOf id' w (.call (.settleBatch id f.amount f.input f.price)) = if id' = id then [f] else [])
    (store : w'.store = { w.store with
      fills := w.store.fills.insert (id, (o.withFill f.amount f.ledger).fillCount)
        ⟨(o.withFill f.amount f.ledger).fillCount, f.amount, f.price, f.ledger,
          decide ((o.withFill f.amount f.ledger).remaining = 0)⟩
      orders := w.store.orders.insert o.orderId (o.withFill f.amount f.ledger) }) :
    Move w (.call (.settleBatch id f.amount f.input f.price)) w'
  | failed {id : Nat} {o : SettlementOrder} {w' : World} (ho : w.store.orders.lookup id = some o)
    (hopen : o.isClosed = false) (store : w'.store = { w.store with
      orders := w.store.orders.insert o.orderId { o with status := .failed } }) :
    Move w (.call (.failSettlementOrder id)) w'

theorem fillOf_of_error {c : Call} (h : (invoke c w).1.isOk = false) (id : Nat) : fillOf id w (.call c) = [] := by
  cases c with
  | settleBatch =>
    rw [fillOf, if_neg]
    rintro ⟨-, hok⟩
    rw [h] at hok
    cases hok
  | createSettlementOrder | failSettlementOrder => rfl

theorem move_of_step (hs : Step w ev w') : Move w ev w' := by
  obtain ⟨hallowed, rfl⟩ := hs
  cases ev with
  | advance => exact .same rfl fun _ => rfl
  | call c =>
    have hclean := (invoke_clean c).unchanged w
    rcases hrun : invoke c w with ⟨r, w'⟩
    rw [next, Tx.settle, hrun]
    rcases r with (e | _) | u
    · refine .same ?_ (fillOf_of_error (by rw [hrun]; rfl))
      exact congrArg World.store (hclean e w' hrun)
    · exact .same rfl (fillOf_of_error (by rw [hrun]; rfl))
    · cases c with
      | createSettlementOrder =>
        obtain ⟨id, hok⟩ := Tx.void_ok.mp hrun
        obtain ⟨hpos, rfl, rfl⟩ := createSettlementOrder_ok hok
        exact .created hpos hallowed.1.2 rfl
      | settleBatch _ fill input price =>
        obtain ⟨r, hok⟩ := Tx.void_ok.mp hrun
        obtain ⟨o, ho, hopen, hfill, hmin, hmax, hle, rfl⟩ := settleBatch_ok hok
        refine .filled (f := ⟨fill, input, price, w.ledger.sequence⟩) ho hopen hfill hmin hmax hle rfl ?_ rfl
        intro id'
        rw [fillOf]
        refine if_congr ⟨fun h => h.1.symm, fun h => ⟨h.symm, ?_⟩⟩ rfl rfl
        rw [hrun]
        rfl
      | failSettlementOrder =>
        obtain ⟨o, ho, hopen, rfl⟩ := failSettlementOrder_ok hrun
        exact .failed ho hopen rfl

/-- A step keeps the invariant, if the count of fills has room. -/
theorem Inv.step (h : Inv hist w.store) (hroom : ∀ id, (journal id ((w, ev) :: hist)).length < 2 ^ 32)
    (hs : Step w ev w') : Inv ((w, ev) :: hist) w'.store := by
  cases move_of_step hs with
  | same store hfill =>
    rw [store]
    exact h.same fun id => by rw [journal, hfill, append_nil]
  | created hpos hfits store =>
    rw [store]
    refine h.create (fun id => by rw [journal, fillOf, append_nil]) rfl ?_
    exact ⟨hpos, hfits, rfl, rfl, le_rfl, hpos.le, iff_of_false (by simp) hpos.ne, by simp⟩
  | @filled id o f _ ho hopen hfill hmin hmax hle hledger hof store =>
    obtain ⟨hid, hsound⟩ := h.orders id o ho
    have hj : journal id ((w, .call (.settleBatch id f.amount f.input f.price)) :: hist) = journal id hist ++ [f] := by
      rw [journal, hof, if_pos rfl]
    have hcount : o.fillCount < u32Max := by
      have hlen := hroom id
      rw [hj, length_append, ← hsound.count, length_singleton] at hlen
      unfold u32Max
      omega
    have hfilled : Sound (o.withFill f.amount f.ledger) _ := hsound.withFill hfill hle hmin hmax hcount
    have hnotfull : w.store.isFull id = false := by
      rw [Storage.isFull, ho, Option.any_some, decide_eq_false_iff_not]
      intro hfull
      rw [SettlementOrder.isClosed, hfull] at hopen
      cases hopen
    rw [store, hid]
    refine h.update ho (hj ▸ hfilled) ?_ ?_ (fun id' hne => by rw [journal, hof, if_neg hne, append_nil])
      (fun i => ?_) fun id' i hne => ?_
    · rw [hsound.withFill_eq hfill hle hcount]
      exact hid
    · rw [hsound.withFill_eq hfill hle hcount]
    · -- the new record has the next index, and is final if the order is full
      have hlen : (o.withFill f.amount f.ledger).fillCount = (journal id hist).length + 1 := by
        rw [hfilled.count, length_append, length_singleton]
      have hfinal : decide ((o.withFill f.amount f.ledger).remaining = 0) =
          decide ((o.withFill f.amount f.ledger).status = .fullySettled) := by
        rw [decide_eq_decide, hfilled.full, hfilled.remaining_eq]
        omega
      rw [hj, recordAt_append, lookup_insert_eq, hlen, hfinal, h.records, hnotfull]
      by_cases heq : i = (journal id hist).length + 1
      · rw [if_pos heq, if_pos (by rw [heq]), heq]
      · rw [if_neg heq, if_neg (by simp [heq])]
    · rw [lookup_insert_eq, if_neg (by simp [hne])]
  | @failed id o _ ho hopen store =>
    obtain ⟨rfl, hsound⟩ := h.orders id o ho
    have hj : ∀ id', journal id' ((w, .call (.failSettlementOrder o.orderId)) :: hist) = journal id' hist :=
      fun id' => by rw [journal, fillOf, append_nil]
    have hfailed : Sound { o with status := .failed } (journal o.orderId hist) := hsound.fail hopen
    rw [← hj] at hfailed
    rw [store]
    refine h.update ho hfailed rfl rfl (fun id' _ => hj id') (fun i => ?_) fun _ _ _ => rfl
    rw [hj, h.records, Storage.isFull, ho, Option.any_some]
    -- the order was not full before either
    congr 1
    rw [decide_eq_decide]
    refine iff_of_false (fun hfull => ?_) (by simp)
    rw [SettlementOrder.isClosed, hfull] at hopen
    cases hopen

/-- A closed order stays as it is. -/
theorem frozen_of_step (h : Inv hist w.store) (hs : Step w ev w') {id : Nat} {o : SettlementOrder}
    (ho : w.store.orders.lookup id = some o) (hclosed : o.isClosed = true) : Frozen id w.store w'.store := by
  cases move_of_step hs with
  | same store => rw [store]; exact ⟨rfl, fun _ => rfl⟩
  | created _ _ store =>
    have hlt := ((h.ids id).mp (by rw [ho]; rfl)).2
    rw [store]
    exact ⟨by rw [lookup_insert_eq, if_neg (by omega)], fun _ => rfl⟩
  | @filled id' o' f _ ho' hopen _ _ _ _ _ _ store =>
    have hne : id ≠ id' := by
      rintro rfl
      rw [ho] at ho'
      cases ho'
      rw [hclosed] at hopen
      cases hopen
    rw [store, (h.orders id' o' ho').1]
    exact ⟨by rw [lookup_insert_eq, if_neg hne], fun i => by rw [lookup_insert_eq, if_neg (by simp [hne])]⟩
  | @failed id' o' _ ho' hopen store =>
    have hne : id ≠ id' := by
      rintro rfl
      rw [ho] at ho'
      cases ho'
      rw [hclosed] at hopen
      cases hopen
    rw [store, (h.orders id' o' ho').1]
    exact ⟨by rw [lookup_insert_eq, if_neg hne], fun _ => rfl⟩

end Steps

/-! ## Runs -/

section Runs

variable {ledger : Ledger} {w : World} {hist : List (World × Event)}

theorem inv_of_trace (h : Trace Step (.deployed ledger) hist w) (hfew : ∀ id, (journal id hist).length < 2 ^ 32) :
    Inv hist w.store := by
  induction h with
  | nil => exact .init
  | snoc _ hs ih =>
    refine (ih fun id => ?_).step hfew hs
    have hlt := hfew id
    rw [journal, length_append] at hlt
    omega

/-- The fill records of an order are those of its journal. -/
theorem Inv.record (h : Inv hist w.store) {id : Nat} {o : SettlementOrder}
    (ho : w.store.orders.lookup id = some o) {i : Nat} {r : FillRecord} :
    w.store.fills.lookup (id, i) = some r ↔ 1 ≤ i ∧ ∃ f, (journal id hist)[i - 1]? = some f ∧
      r = ⟨i, f.amount, f.price, f.ledger, decide (o.status = .fullySettled ∧ i = o.fillCount)⟩ := by
  rw [h.records, Storage.isFull, ho, Option.any_some, (h.orders id o ho).2.count]
  cases i with
  | zero => exact iff_of_false (by simp [recordAt]) (by simp)
  | succ i =>
    rw [recordAt, Option.map_eq_some_iff, Nat.add_sub_cancel, Bool.decide_and]
    simp
    exact exists_congr fun f => and_congr_right fun _ => eq_comm

/-- The sum of the records is that of the journal. -/
theorem Inv.filled (h : Inv hist w.store) {id : Nat} {o : SettlementOrder}
    (ho : w.store.orders.lookup id = some o) :
    w.store.filled id o.fillCount = ((journal id hist).map (·.amount)).sum := by
  have hmap : (List.range o.fillCount).map
      (fun i => (w.store.fills.lookup (id, i + 1)).elim 0 (·.filledAmount)) = (journal id hist).map (·.amount) := by
    refine ext_getElem ?_ fun i h₁ h₂ => ?_
    · rw [length_map, length_map, length_range, (h.orders id o ho).2.count]
    · rw [length_map] at h₂
      rw [getElem_map, getElem_map, getElem_range,
        (h.record ho).mpr ⟨Nat.le_add_left 1 i, _, List.getElem?_eq_getElem h₂, rfl⟩]
      rfl
  rw [Storage.filled, hmap]

theorem Inv.accounted (h : Inv hist w.store) {id : Nat} {o : SettlementOrder}
    (ho : w.store.orders.lookup id = some o) : OrderAccounted w.store id o (journal id hist) where
  settled := ((h.orders id o ho).2.settled).trans (h.filled ho).symm
  stored i := by
    rw [Option.isSome_iff_exists, (h.orders id o ho).2.count]
    constructor
    · rintro ⟨r, hr⟩
      obtain ⟨hi, f, hf, -⟩ := (h.record ho).mp hr
      obtain ⟨hlt, -⟩ := List.getElem?_eq_some_iff.mp hf
      omega
    · rintro ⟨hi, hle⟩
      have hlt : i - 1 < (journal id hist).length := by omega
      exact ⟨_, (h.record ho).mpr ⟨hi, _, List.getElem?_eq_getElem hlt, rfl⟩⟩
  range := ⟨(h.orders id o ho).2.nonneg, (h.orders id o ho).2.within⟩
  full := (h.orders id o ho).2.full
  final i r hr := by
    obtain ⟨-, f, -, rfl⟩ := (h.record ho).mp hr
    exact decide_eq_true_iff
  last hfull := by
    obtain ⟨-, hsound⟩ := h.orders id o ho
    have hpos := hsound.positive
    rw [← hsound.full.mp hfull, hsound.settled] at hpos
    rw [hsound.count]
    by_contra hempty
    have hnil : journal id hist = [] := List.length_eq_zero_iff.mp (by omega)
    rw [hnil] at hpos
    exact absurd hpos (by simp)
  bounds i r hr := by
    obtain ⟨-, f, hf, rfl⟩ := (h.record ho).mp hr
    obtain ⟨hmin, hmax⟩ := (h.orders id o ho).2.bounds f (mem_of_getElem? hf)
    exact ⟨f, hf, rfl, rfl, hmin, hmax⟩

theorem frozen_of_trace (h : Trace Step (.deployed ledger) hist w)
    (hfew : ∀ id, (journal id hist).length < 2 ^ 32) : ∀ e ∈ hist, ∀ id o,
      e.1.store.orders.lookup id = some o → o.isClosed = true → Frozen id e.1.store w.store := by
  induction h with
  | nil => intro e he; cases he
  | @snoc hist w w' ev h hs ih =>
    have hfew' : ∀ id, (journal id hist).length < 2 ^ 32 := fun id => by
      have hlt := hfew id
      rw [journal, length_append] at hlt
      omega
    have hinv := inv_of_trace h hfew'
    intro e he id o ho hclosed
    rcases List.mem_cons.mp he with rfl | he
    · exact frozen_of_step hinv hs ho hclosed
    · have hbefore := ih hfew' e he id o ho hclosed
      have hnow := frozen_of_step hinv hs (hbefore.order.trans ho) hclosed
      exact ⟨hnow.order.trans hbefore.order, fun i => (hnow.fills i).trans (hbefore.fills i)⟩

end Runs

/-- In a run with fewer than `2 ^ 32` fills for every order, the accounts of every order agree; an order that was
closed stays as it was; a call that fails leaves the storage as it was; and the orders of a user are listed as they
were created. -/
theorem settlement_accounted {ledger : Ledger} {w : World} {hist : List (World × Event)}
    (h : Trace Step (.deployed ledger) hist w) (hfew : ∀ id, (journal id hist).length < 2 ^ 32) :
    (∀ id o, w.store.orders.lookup id = some o → OrderAccounted w.store id o (journal id hist)) ∧
      (∀ e ∈ hist, ∀ id o, e.1.store.orders.lookup id = some o → o.isClosed = true → Frozen id e.1.store w.store) ∧
      (∀ c e, (invoke c w).1 = .error e → (next w (.call c)).store = w.store) ∧
      (∀ id, (w.store.orders.lookup id).isSome = true ↔ 1 ≤ id ∧ id < w.store.nextOrderId) ∧
      ∀ user, w.store.ordersOf user = w.store.createdBy user := by
  have hinv := inv_of_trace h hfew
  refine ⟨fun id o ho => hinv.accounted ho, frozen_of_trace h hfew, fun c e hfail => ?_, hinv.ids, hinv.listed⟩
  rcases settle_cases (invoke_clean c) w with ⟨u, hok⟩ | hsame
  · rw [hok] at hfail
    cases hfail
  · rw [next, hsame]

namespace Sample

def alice : Address := ⟨1⟩

/-- An order for 100 that two fills settle; a third one is rejected. -/
def settling : List Event :=
  [.call (.createSettlementOrder alice 100 ⟨10, 90⟩), .call (.settleBatch 1 60 80 7),
    .call (.settleBatch 1 40 50 8), .call (.settleBatch 1 10 10 8)]

def settled : World := settling.foldl next (.deployed ⟨1000, 10⟩)

/-- The order is settled by the two fills together. -/
theorem two_fills_settle : (settled.store.orders.lookup 1).map (·.status) = some .fullySettled ∧
    settled.store.filled 1 2 = 100 ∧ settled.store.ordersOf alice = settled.store.createdBy alice ∧
    ∀ o, settled.store.orders.lookup 1 = some o → o.settledAmount = settled.store.filled 1 o.fillCount := by
  have hrun := Trace.of_along (by decide +kernel : Reaches.Along next Allowed (.deployed ⟨1000, 10⟩) settling)
  have haccounted := settlement_accounted hrun fun id => (length_journal_le id _).trans_lt (by decide +kernel)
  exact ⟨by decide +kernel, by decide +kernel, haccounted.2.2.2.2 alice, fun o ho => (haccounted.1 1 o ho).settled⟩

end Sample

end CallStake.Settlement
