import CallStake.UserPortfolio.Entrypoints

/-!
# What the calls do

Every call is described once, by what it does to the state.

* `Opening`, `openingOf`: the position that an accepted call opens. `Reduction`, `reductionOf`: the position that it
  closes, or reduces, and the `Way`.
* `Book.opened`, `Book.reduced` and so on: the parts of the state after it.
* `Relisted`: what the views and the migration may write.
* `Move`, `move_next`: each event is one of these moves.
-/

namespace CallStake.UserPortfolio

open Tx

/-! ## Openings -/

/-- What an accepted call opens. -/
structure Opening where
  user : Address
  id : Nat
  asset : Option Nat
  entryPrice : Int
  amount : Int

def Opening.position (o : Opening) : Position := ⟨o.entryPrice, o.amount, .open, 0⟩

/-- The user may open a position with these values. -/
def Config.Admits (c : Config) (auth : Auth) (user : Address) (entryPrice amount : Int) : Prop :=
  auth user = true ∧ 0 < entryPrice ∧ 0 < amount ∧
    (c.kycRequiredMode = true → (c.kycVerified.lookup user).getD false = true) ∧
    (c.restricted.lookup user).getD false = false

instance (c : Config) (auth : Auth) (user : Address) (entryPrice amount : Int) :
    Decidable (c.Admits auth user entryPrice amount) := inferInstanceAs (Decidable (_ ∧ _))

def Exposures.BelowCap (e : Exposures) (user : Address) (assetId : Nat) (amount : Int) : Prop :=
  ∀ c ∈ e.cap.lookup (user, assetId), saturatingAdd (e.exposureOf user assetId) amount ≤ c

instance (e : Exposures) (user : Address) (assetId : Nat) (amount : Int) :
    Decidable (e.BelowCap user assetId amount) := inferInstanceAs (Decidable (∀ c ∈ _, _))

/-- The next id, unless it is the last one. -/
def Book.freeId (b : Book) : Option Nat := b.nextPositionId.filter (· < u64Max)

/-- The position that an accepted call opens. -/
def openingOf (w : World) : Event → Option Opening
  | .call auth (.openPosition user entryPrice amount) =>
    if w.store.config.Admits auth user entryPrice amount then
      w.store.book.freeId.map fun id => ⟨user, id, none, entryPrice, amount⟩
    else none
  | .call auth (.openPositionWithCapCheck user assetId entryPrice amount) =>
    if w.store.config.Admits auth user entryPrice amount ∧ w.store.exposures.BelowCap user assetId amount then
      w.store.book.freeId.map fun id => ⟨user, id, some assetId, entryPrice, amount⟩
    else none
  | _ => none

def Book.opened (b : Book) (o : Opening) : Book := { b with
  nextPositionId := some (o.id + 1)
  positions := b.positions.insert o.id o.position
  userPositions := b.userPositions.insert o.user (b.ids o.user ++ [o.id])
  userOpenPositions := b.userOpenPositions.insert o.user ((b.userOpenPositions.lookup o.user).getD [] ++ [o.id]) }

def Records.opened (r : Records) (o : Opening) (now : Nat) : Records :=
  match o.asset with
  | none => { r with positionOpenedAt := r.positionOpenedAt.insert o.id now }
  | some assetId => { r with positionAsset := r.positionAsset.insert o.id assetId }

def Exposures.opened (e : Exposures) (o : Opening) : Exposures :=
  match o.asset with
  | none => e
  | some assetId => { e with
    exposure := e.exposure.insert (o.user, assetId) (saturatingAdd (e.exposureOf o.user assetId) o.amount) }

/-- The world after an opening. -/
def World.opened (w : World) (o : Opening) : World :=
  { w with
    store := { w.store with
      book := w.store.book.opened o
      records := w.store.records.opened o w.ledger.timestamp
      exposures := w.store.exposures.opened o }
    journal := .opened o.user o.id o.amount :: w.journal }

/-! ## Reductions -/

/-- How a position is closed, or reduced. -/
inductive Way where
  | byUser (realizedPnl exitPrice : Int) (assetPair : Nat)
  | byKeeper (assetPair : Nat)
  | inPart (closeAmount realizedPnlDelta : Int)

/-- The position afterwards. -/
def Way.after (pos : Position) : Way → Position
  | .byUser realizedPnl _ _ => { pos with status := .closed, realizedPnl := pos.realizedPnl + realizedPnl }
  | .byKeeper _ => { pos with status := .closed }
  | .inPart closeAmount realizedPnlDelta => { pos with
    amount := pos.amount - closeAmount
    realizedPnl := pos.realizedPnl + realizedPnlDelta
    status := if pos.amount - closeAmount = 0 then .closed else .open }

/-- The values fit the position. -/
def Way.Fits (pos : Position) : Way → Prop
  | .byUser realizedPnl _ _ => InRange (pos.realizedPnl + realizedPnl)
  | .byKeeper _ => True
  | .inPart closeAmount realizedPnlDelta =>
    (0 < closeAmount ∧ closeAmount ≤ pos.amount) ∧ InRange (pos.amount - closeAmount) ∧
      InRange (pos.realizedPnl + realizedPnlDelta)

instance (pos : Position) : (way : Way) → Decidable (way.Fits pos)
  | .byUser .. => inferInstanceAs (Decidable (InRange _))
  | .byKeeper _ => inferInstanceAs (Decidable True)
  | .inPart .. => inferInstanceAs (Decidable (_ ∧ _))

/-- What an accepted call closes, and how. -/
structure Reduction where
  user : Address
  id : Nat
  pos : Position
  way : Way

/-- An open position of the user. -/
def Book.openOf (b : Book) (user : Address) (id : Nat) : Option Position :=
  if id ∈ b.ids user then (b.positions.lookup id).filter fun pos => pos.Valid ∧ pos.status = .open else none

def Book.reduction (b : Book) (user : Address) (id : Nat) (way : Way) : Option Reduction :=
  ((b.openOf user id).filter fun pos => way.Fits pos).map fun pos => ⟨user, id, pos, way⟩

/-- The position that an accepted call closes, or reduces. -/
def reductionOf (w : World) : Event → Option Reduction
  | .call auth (.closePosition user id realizedPnl exitPrice assetPair) =>
    if auth user = true then w.store.book.reduction user id (.byUser realizedPnl exitPrice assetPair) else none
  | .call auth (.closePositionKeeper caller user id assetPair) =>
    if auth caller = true ∧ w.store.config.tradeExecutor = some caller then
      w.store.book.reduction user id (.byKeeper assetPair)
    else none
  | .call auth (.closePositionPartial user id closeAmount realizedPnlDelta) =>
    if auth user = true then w.store.book.reduction user id (.inPart closeAmount realizedPnlDelta) else none
  | _ => none

namespace Reduction

def after (r : Reduction) : Position := r.way.after r.pos

def entry (r : Reduction) : Entry :=
  match r.way with
  | .byUser realizedPnl _ _ => .closed r.user r.id realizedPnl
  | .byKeeper _ => .closedByKeeper r.user r.id
  | .inPart closeAmount realizedPnlDelta => .partiallyClosed r.user r.id closeAmount realizedPnlDelta

end Reduction

def Book.stored (b : Book) (id : Nat) (pos : Position) : Book := { b with positions := b.positions.insert id pos }

/-- `markPositionClosed`. -/
def Book.marked (b : Book) (user : Address) (id : Nat) : Book :=
  let closedIds := (b.userClosedPositions.lookup user).getD []
  { b with
    userOpenPositions := b.userOpenPositions.insert user
      (((b.userOpenPositions.lookup user).getD []).filter (· ≠ id))
    userClosedPositions :=
      if id ∈ closedIds then b.userClosedPositions else b.userClosedPositions.insert user (closedIds ++ [id]) }

def Book.reduced (b : Book) (r : Reduction) : Book :=
  if r.after.status = .closed then (b.stored r.id r.after).marked r.user r.id else b.stored r.id r.after

/-- The tax event of a close. -/
def Records.taxEvent (rec : Records) (r : Reduction) (now : Nat) (exitPrice realizedPnl : Int) (assetPair : Nat) :
    TaxEvent :=
  ⟨r.id, (rec.positionOpenedAt.lookup r.id).getD 0, now, r.pos.entryPrice, exitPrice, r.pos.amount, realizedPnl,
    assetPair⟩

def Records.taxed (rec : Records) (user : Address) (e : TaxEvent) : Records :=
  { rec with userTaxEvents := rec.userTaxEvents.insert user (rec.taxEvents user ++ [e]) }

def Records.reduced (rec : Records) (r : Reduction) (now : Nat) : Records :=
  match r.way with
  | .byUser realizedPnl exitPrice assetPair =>
    (rec.taxed r.user (rec.taxEvent r now exitPrice realizedPnl assetPair)).streaked r.user realizedPnl
  | .byKeeper assetPair => rec.taxed r.user (rec.taxEvent r now 0 0 assetPair)
  | .inPart .. => rec

/-- The world after a close. -/
def World.reduced (w : World) (r : Reduction) : World :=
  { w with
    store := { w.store with
      book := w.store.book.reduced r
      records := w.store.records.reduced r w.ledger.timestamp }
    journal := r.entry :: w.journal }

theorem openOf_eq_some {b : Book} {user : Address} {id : Nat} {pos : Position} :
    b.openOf user id = some pos ↔
      id ∈ b.ids user ∧ b.positions.lookup id = some pos ∧ pos.Valid ∧ pos.status = .open := by
  unfold Book.openOf
  split
  · rename_i hid
    simp [Option.filter_eq_some_iff, hid]
  · rename_i hid
    simp [hid]

theorem reduction_eq_some {b : Book} {user : Address} {id : Nat} {way : Way} {r : Reduction} :
    b.reduction user id way = some r ↔
      ∃ pos, b.openOf user id = some pos ∧ way.Fits pos ∧ r = ⟨user, id, pos, way⟩ := by
  simp [Book.reduction, and_assoc, eq_comm (a := r)]

/-! ## The rest -/

/-- `initialize`. -/
def World.started (w : World) (admin oracle : Address) : World :=
  { w with store := { w.store with
    config := { w.store.config with
      initialized := true
      admin := some admin
      oracle := some oracle
      oracleAssetPair := 0 }
    book := { w.store.book with nextPositionId := some 1 } } }

/-- An accepted sale of lots. -/
def World.sold (w : World) (user : Address) (lots : Store Address (List CostLot)) (pnl : Int) : World :=
  { w with
    store := { w.store with
      fifo.lots := lots
      fifo.realizedPnl := w.store.fifo.realizedPnl.insert user
        (saturatingAdd ((w.store.fifo.realizedPnl.lookup user).getD 0) pnl) }
    journal := .soldFifo user pnl :: w.journal }

/-- What no position, no list and no sum depends on. -/
def World.aside (w : World) (ledger : Ledger) (config : Config) (lots : Store Address (List CostLot))
    (cap : Store (Address × Nat) Int) : World :=
  { w with
    ledger
    store := { w.store with
      config
      fifo.lots := lots
      exposures.cap := cap } }

/-- Both indexes of a user, or none. -/
structure Relisted (b b' : Book) : Prop where
  next : b'.nextPositionId = b.nextPositionId
  positions : b'.positions = b.positions
  userPositions : b'.userPositions = b.userPositions
  indexes : ∀ u, (b'.userOpenPositions.lookup u, b'.userClosedPositions.lookup u) =
      (b.userOpenPositions.lookup u, b.userClosedPositions.lookup u) ∨
    (b'.userOpenPositions.lookup u, b'.userClosedPositions.lookup u) =
      (some (b.split (b.ids u)).1, some (b.split (b.ids u)).2)

def World.relisted (w : World) (b : Book) : World := { w with store := { w.store with book := b } }

/-- What no setting takes back. -/
structure Config.Follows (c c' : Config) : Prop where
  initialized : c'.initialized = c.initialized
  oracle : c.oracle.isSome = true → c'.oracle.isSome = true

theorem Config.Follows.refl (c : Config) : c.Follows c := ⟨rfl, id⟩

/-- What an event may do. -/
inductive Move (w : World) (ev : Event) : World → Prop
  | opened (o : Opening) (h : openingOf w ev = some o) : Move w ev (w.opened o)
  | reduced (r : Reduction) (h : reductionOf w ev = some r) : Move w ev (w.reduced r)
  | started (admin oracle : Address) (h : w.store.config.initialized = false) : Move w ev (w.started admin oracle)
  | relisted (b : Book) (h : Relisted w.store.book b) : Move w ev (w.relisted b)
  | sold (user : Address) (lots : Store Address (List CostLot)) (pnl : Int) : Move w ev (w.sold user lots pnl)
  | aside (ledger : Ledger) (config : Config) (lots : Store Address (List CostLot)) (cap : Store (Address × Nat) Int)
    (h : Config.Follows w.store.config config) : Move w ev (w.aside ledger config lots cap)

theorem Relisted.refl (b : Book) : Relisted b b := ⟨rfl, rfl, rfl, fun _ => .inl rfl⟩

/-- The indexes that are rebuilt depend on the positions and the list of all of them only. -/
theorem Relisted.trans {b b' b'' : Book} (h : Relisted b b') (h' : Relisted b' b'') : Relisted b b'' where
  next := h'.next.trans h.next
  positions := h'.positions.trans h.positions
  userPositions := h'.userPositions.trans h.userPositions
  indexes u := by
    have hsplit : b'.split (b'.ids u) = b.split (b.ids u) := by
      unfold Book.split Book.having Book.ids
      rw [h.positions, h.userPositions]
    rcases h'.indexes u with heq | heq
    · rw [heq]
      exact h.indexes u
    · rw [heq, hsplit]
      exact .inr rfl

theorem Move.stay (w : World) (ev : Event) : Move w ev w :=
  .aside w.ledger w.store.config w.store.fifo.lots w.store.exposures.cap (.refl _)

/-! ## Openings, step by step -/

section Inversion

variable {w w' : World} {auth : Auth} {user : Address}

/-- The world with other positions and lists. -/
theorem bind_saveBook_ok {α : Type} {f : Book → Book} {a : α} {k : Unit → P α} :
    (saveBook f >>= k) w = (.ok a, w') ↔ k () (w.relisted (f w.store.book)) = (.ok a, w') := Iff.rfl

theorem checkOpening_ok {entryPrice amount : Int} {u : Unit}
    (hr : checkOpening auth user entryPrice amount w = (.ok u, w')) :
    w.store.config.Admits auth user entryPrice amount ∧ w = w' := by
  rw [checkOpening, bind_requireAuth_ok, bind_failIf_ok, bind_gets_ok, bind_failIf_ok, failIf_ok] at hr
  obtain ⟨hauth, hargs, hkyc, hrestricted, rfl⟩ := hr
  push Not at hargs
  refine ⟨⟨hauth, hargs.1, hargs.2, fun hmode => ?_, by simpa using hrestricted⟩, rfl⟩
  simpa [hmode] using hkyc

theorem nextId_ok {id : Nat} (hr : nextId w = (.ok id, w')) :
    w.store.book.freeId = some id ∧ w' = w.relisted { w.store.book with nextPositionId := some (id + 1) } := by
  rw [nextId, bind_gets_ok] at hr
  obtain ⟨n, hn, hr⟩ := bind_ofOption_ok.mp hr
  rw [bind_failIf_ok, bind_saveBook_ok] at hr
  obtain ⟨hmax, hr⟩ := hr
  obtain ⟨rfl, rfl⟩ := pure_ok.mp hr
  refine ⟨?_, rfl⟩
  rw [Book.freeId, hn, Option.filter_some, if_pos]
  have hlt : n < u64Max := by omega
  simpa using hlt

theorem openPosition_ok {entryPrice amount : Int} {id : Nat}
    (hr : openPosition auth user entryPrice amount w = (.ok id, w')) :
    w.store.config.Admits auth user entryPrice amount ∧ w.store.book.freeId = some id ∧
      w'.note (.opened user id amount) = w.opened ⟨user, id, none, entryPrice, amount⟩ := by
  unfold openPosition at hr
  obtain ⟨_, w₁, hcheck, hr⟩ := bind_ok.mp hr
  obtain ⟨hadmits, rfl⟩ := checkOpening_ok hcheck
  obtain ⟨n, w₂, hnext, hr⟩ := bind_ok.mp hr
  obtain ⟨hfree, rfl⟩ := nextId_ok hnext
  rw [storePosition, bind_saveBook_ok, bind_gets_ok, saveRecords, bind_modify_ok] at hr
  rw [enlist, bind_assoc_eq, bind_saveBook_ok, bind_saveBook_ok] at hr
  obtain ⟨rfl, rfl⟩ := pure_ok.mp hr
  exact ⟨hadmits, hfree, rfl⟩

theorem checkCap_ok {assetId : Nat} {amount : Int} {u : Unit} (hr : checkCap user assetId amount w = (.ok u, w')) :
    w.store.exposures.BelowCap user assetId amount ∧ w = w' := by
  rw [checkCap, bind_gets_ok, bind_gets_ok, failIf_ok] at hr
  obtain ⟨hcap, rfl⟩ := hr
  push Not at hcap
  exact ⟨hcap, rfl⟩

theorem openPositionWithCapCheck_ok {assetId : Nat} {entryPrice amount : Int} {id : Nat}
    (hr : openPositionWithCapCheck auth user assetId entryPrice amount w = (.ok id, w')) :
    (w.store.config.Admits auth user entryPrice amount ∧ w.store.exposures.BelowCap user assetId amount) ∧
      w.store.book.freeId = some id ∧
      w'.note (.opened user id amount) = w.opened ⟨user, id, some assetId, entryPrice, amount⟩ := by
  unfold openPositionWithCapCheck at hr
  obtain ⟨_, w₁, hcheck, hr⟩ := bind_ok.mp hr
  obtain ⟨hadmits, rfl⟩ := checkOpening_ok hcheck
  obtain ⟨_, w₂, hcap, hr⟩ := bind_ok.mp hr
  obtain ⟨hbelow, rfl⟩ := checkCap_ok hcap
  obtain ⟨n, w₃, hnext, hr⟩ := bind_ok.mp hr
  obtain ⟨hfree, rfl⟩ := nextId_ok hnext
  rw [storePosition, bind_saveBook_ok, saveRecords, bind_modify_ok] at hr
  rw [enlist, bind_assoc_eq, bind_saveBook_ok, bind_saveBook_ok, addExposure, saveExposures, bind_modify_ok] at hr
  obtain ⟨rfl, rfl⟩ := pure_ok.mp hr
  exact ⟨⟨hadmits, hbelow⟩, hfree, rfl⟩

/-! ## Reductions, step by step -/

theorem requireOpenPosition_ok {id : Nat} {pos : Position}
    (hr : requireOpenPosition user id w = (.ok pos, w')) : w.store.book.openOf user id = some pos ∧ w = w' := by
  rw [requireOpenPosition, bind_gets_ok, bind_failIf_ok, bind_gets_ok] at hr
  obtain ⟨hid, hr⟩ := hr
  obtain ⟨p, hp, hr⟩ := bind_ofOption_ok.mp hr
  rw [assertPositionInvariants, bind_failIf_ok, bind_failIf_ok] at hr
  obtain ⟨hvalid, hopen, hr⟩ := hr
  obtain ⟨rfl, rfl⟩ := pure_ok.mp hr
  exact ⟨openOf_eq_some.mpr ⟨not_not.mp hid, hp, not_not.mp hvalid, not_not.mp hopen⟩, rfl⟩

theorem markPositionClosed_ok {id : Nat} {u : Unit} (hr : markPositionClosed user id w = (.ok u, w')) :
    w' = w.relisted (w.store.book.marked user id) := by
  rw [markPositionClosed, bind_saveBook_ok, bind_gets_ok, when_ok] at hr
  split at hr
  · rename_i hid
    have hid : id ∉ (w.store.book.userClosedPositions.lookup user).getD [] := hid
    rw [← modify_ok.mp hr, Book.marked, if_neg hid]
    rfl
  · rename_i hid
    have hid : id ∈ (w.store.book.userClosedPositions.lookup user).getD [] := not_not.mp hid
    rw [← hr, Book.marked, if_pos hid]

theorem finalize_ok {id : Nat} {pos : Position} {u : Unit} (hr : finalize user id pos w = (.ok u, w')) :
    w' = w.relisted ((w.store.book.stored id { pos with status := .closed }).marked user id) := by
  rw [finalize, assertPositionInvariants, bind_failIf_ok, storePosition, bind_saveBook_ok] at hr
  exact markPositionClosed_ok hr.2

/-- The terminal write replaces the lock. -/
theorem lock_finalize_ok {id : Nat} {pos pos' : Position} {u : Unit}
    (hr : finalize user id pos' (w.relisted (w.store.book.stored id pos)) = (.ok u, w')) :
    w' = w.relisted ((w.store.book.stored id { pos' with status := .closed }).marked user id) := by
  rw [finalize_ok hr]
  unfold World.relisted Book.stored
  dsimp only
  rw [AList.insert_insert]

theorem closePosition_ok {id : Nat} {realizedPnl exitPrice : Int} {assetPair : Nat} {u : Unit}
    (hr : closePosition auth user id realizedPnl exitPrice assetPair w = (.ok u, w')) :
    auth user = true ∧ ∃ r, w.store.book.reduction user id (.byUser realizedPnl exitPrice assetPair) = some r ∧
      w'.note (.closed user id realizedPnl) = w.reduced r := by
  rw [closePosition, bind_requireAuth_ok] at hr
  obtain ⟨hauth, hr⟩ := hr
  obtain ⟨pos, w₁, hguard, hr⟩ := bind_ok.mp hr
  obtain ⟨hpos, rfl⟩ := requireOpenPosition_ok hguard
  rw [lock, storePosition, bind_saveBook_ok] at hr
  obtain ⟨realized, hrealized, hr⟩ := bind_ofOption_ok.mp hr
  obtain ⟨hlo, hhi, rfl⟩ := checkedAdd_eq_some.mp hrealized
  obtain ⟨_, w₂, hfinal, hr⟩ := bind_ok.mp hr
  have hw₂ := lock_finalize_ok hfinal
  rw [appendTaxEvent, bind_assoc_eq, bind_gets_ok, saveRecords, bind_modify_ok, saveRecords, modify_ok] at hr
  subst hw₂ hr
  exact ⟨hauth, _, reduction_eq_some.mpr ⟨pos, hpos, ⟨hlo, hhi⟩, rfl⟩, rfl⟩

theorem closePositionKeeper_ok {caller : Address} {id assetPair : Nat} {u : Unit}
    (hr : closePositionKeeper auth caller user id assetPair w = (.ok u, w')) :
    (auth caller = true ∧ w.store.config.tradeExecutor = some caller) ∧
      ∃ r, w.store.book.reduction user id (.byKeeper assetPair) = some r ∧
        w'.note (.closedByKeeper user id) = w.reduced r := by
  rw [closePositionKeeper, bind_requireAuth_ok, bind_gets_ok] at hr
  obtain ⟨hauth, hr⟩ := hr
  obtain ⟨executor, hexecutor, hr⟩ := bind_ofOption_ok.mp hr
  rw [bind_failIf_ok] at hr
  obtain ⟨hcaller, hr⟩ := hr
  obtain rfl : caller = executor := not_not.mp hcaller
  obtain ⟨pos, w₁, hguard, hr⟩ := bind_ok.mp hr
  obtain ⟨hpos, rfl⟩ := requireOpenPosition_ok hguard
  rw [lock, storePosition, bind_saveBook_ok] at hr
  obtain ⟨_, w₂, hfinal, hr⟩ := bind_ok.mp hr
  have hw₂ := lock_finalize_ok hfinal
  rw [appendTaxEvent, bind_gets_ok, saveRecords, modify_ok] at hr
  subst hw₂ hr
  exact ⟨⟨hauth, hexecutor⟩, _, reduction_eq_some.mpr ⟨pos, hpos, trivial, rfl⟩, rfl⟩

theorem reduce_ok {id : Nat} {pos : Position} {u : Unit}
    (hr : reduce user id pos w = (.ok u, w')) :
    w' = w.relisted (if pos.amount = 0 then (w.store.book.stored id { pos with status := .closed }).marked user id
      else w.store.book.stored id pos) := by
  unfold reduce at hr
  split at hr
  · rename_i hzero
    rw [lock, storePosition, bind_saveBook_ok] at hr
    rw [if_pos hzero]
    exact lock_finalize_ok hr
  · rename_i hleft
    rw [assertPositionInvariants, bind_failIf_ok, storePosition, saveBook, modify_ok] at hr
    rw [if_neg hleft, ← hr.2]
    rfl

theorem closePositionPartial_ok {id : Nat} {closeAmount realizedPnlDelta left : Int}
    (hr : closePositionPartial auth user id closeAmount realizedPnlDelta w = (.ok left, w')) :
    auth user = true ∧ ∃ r, w.store.book.reduction user id (.inPart closeAmount realizedPnlDelta) = some r ∧
      w'.note (.partiallyClosed user id closeAmount realizedPnlDelta) = w.reduced r := by
  rw [closePositionPartial, bind_requireAuth_ok, bind_failIf_ok] at hr
  obtain ⟨hauth, hpositive, hr⟩ := hr
  obtain ⟨pos, w₁, hguard, hr⟩ := bind_ok.mp hr
  obtain ⟨hpos, rfl⟩ := requireOpenPosition_ok hguard
  rw [bind_failIf_ok] at hr
  obtain ⟨hle, hr⟩ := hr
  obtain ⟨amount, hamount, hr⟩ := bind_ofOption_ok.mp hr
  obtain ⟨realized, hrealized, hr⟩ := bind_ofOption_ok.mp hr
  obtain ⟨hlo, hhi, rfl⟩ := checkedSub_eq_some.mp hamount
  obtain ⟨hlo', hhi', rfl⟩ := checkedAdd_eq_some.mp hrealized
  have hopen := (openOf_eq_some.mp hpos).2.2.2
  obtain ⟨_, w₂, hreduce, hr⟩ := bind_ok.mp hr
  have hw₂ := reduce_ok hreduce
  obtain ⟨-, rfl⟩ := pure_ok.mp hr
  refine ⟨hauth, _, reduction_eq_some.mpr ⟨pos, hpos, ⟨⟨by omega, by omega⟩, ⟨hlo, hhi⟩, hlo', hhi'⟩, rfl⟩, ?_⟩
  subst hw₂
  unfold World.reduced Book.reduced Reduction.after Way.after
  dsimp only
  by_cases hzero : pos.amount - closeAmount = 0
  · rw [if_pos hzero, if_pos (if_pos hzero), if_pos hzero]
    rfl
  · have hstatus : ({ pos with
        amount := pos.amount - closeAmount
        realizedPnl := pos.realizedPnl + realizedPnlDelta } : Position) =
        ⟨pos.entryPrice, pos.amount - closeAmount, .open, pos.realizedPnl + realizedPnlDelta⟩ := by
      rw [hopen]
    rw [if_neg hzero, if_neg (by rw [if_neg hzero]; decide), if_neg hzero, hstatus]
    rfl

/-! ## The settings, the lots and the caps -/

theorem requireAdmin_ok {u : Unit} (hr : requireAdmin auth w = (.ok u, w')) : w = w' := by
  rw [requireAdmin, bind_gets_ok] at hr
  obtain ⟨admin, -, hr⟩ := bind_ofOption_ok.mp hr
  exact (requireAuth_ok.mp hr).2

theorem initializePortfolio_ok {admin oracle : Address} {u : Unit}
    (hr : initializePortfolio auth admin oracle w = (.ok u, w')) :
    w.store.config.initialized = false ∧ w' = w.started admin oracle := by
  rw [initializePortfolio, bind_gets_ok, bind_failIf_ok, bind_requireAuth_ok, saveConfig, bind_modify_ok, saveBook,
    modify_ok] at hr
  obtain ⟨hfirst, -, rfl⟩ := hr
  exact ⟨by simpa using hfirst, rfl⟩

theorem Setting.follows (c : Config) (s : Setting) : c.Follows (s.apply c) := by
  cases s with
  | setOracle => exact ⟨rfl, fun _ => rfl⟩
  | _ => exact ⟨rfl, id⟩

theorem configure_ok {s : Setting} {u : Unit} (hr : configure auth s w = (.ok u, w')) :
    w' = w.aside w.ledger (s.apply w.store.config) w.store.fifo.lots w.store.exposures.cap := by
  unfold configure at hr
  obtain ⟨_, w₁, hadmin, hr⟩ := bind_ok.mp hr
  obtain rfl := requireAdmin_ok hadmin
  rw [saveConfig, modify_ok] at hr
  exact hr.symm

theorem setAssetExposureCap_ok {assetId : Nat} {capAmount : Int} {u : Unit}
    (hr : setAssetExposureCap auth user assetId capAmount w = (.ok u, w')) :
    ∃ cap, w' = w.aside w.ledger w.store.config w.store.fifo.lots cap := by
  rw [setAssetExposureCap, bind_requireAuth_ok, bind_failIf_ok, saveExposures, modify_ok] at hr
  exact ⟨_, hr.2.2.symm⟩

theorem removeAssetExposureCap_ok {assetId : Nat} {u : Unit}
    (hr : removeAssetExposureCap auth user assetId w = (.ok u, w')) :
    ∃ cap, w' = w.aside w.ledger w.store.config w.store.fifo.lots cap := by
  rw [removeAssetExposureCap, bind_requireAuth_ok, saveExposures, modify_ok] at hr
  exact ⟨_, hr.2.symm⟩

theorem addCostLot_ok {entryPrice amount : Int} {u : Unit}
    (hr : addCostLot auth user entryPrice amount w = (.ok u, w')) :
    ∃ lots, w' = w.aside w.ledger w.store.config lots w.store.exposures.cap := by
  rw [addCostLot, bind_requireAuth_ok, bind_failIf_ok, saveFifo, modify_ok] at hr
  exact ⟨_, hr.2.2.symm⟩

theorem closeFifo_ok {closeAmount exitPrice pnl : Int}
    (hr : closeFifo auth user closeAmount exitPrice w = (.ok pnl, w')) :
    ∃ lots, w'.note (.soldFifo user pnl) = w.sold user lots pnl := by
  rw [closeFifo, bind_requireAuth_ok, bind_failIf_ok, bind_gets_ok] at hr
  obtain ⟨-, -, hr⟩ := hr
  rw [bind_failIf_ok, saveFifo, bind_modify_ok, saveFifo, bind_modify_ok] at hr
  obtain ⟨rfl, rfl⟩ := pure_ok.mp hr.2
  exact ⟨_, rfl⟩

end Inversion

/-! ## The views and the migration -/

/-- Only the indexes are written, and the books of the migration. -/
def Listing (w w' : World) : Prop := ∃ b, Relisted w.store.book b ∧ w' = w.relisted b

instance : IsPreorder World Listing where
  refl w := ⟨w.store.book, .refl _, rfl⟩
  trans := by
    rintro w _ _ ⟨b, hb, rfl⟩ ⟨b', hb', rfl⟩
    exact ⟨b', hb.trans hb', rfl⟩

/-- Both indexes of the user, from the list. -/
def Book.rebuilt (b : Book) (user : Address) : Book := { b with
  userOpenPositions := b.userOpenPositions.insert user (b.split (b.ids user)).1
  userClosedPositions := b.userClosedPositions.insert user (b.split (b.ids user)).2 }

theorem relisted_rebuilt (b : Book) (user : Address) (migrated : Store Address Bool) :
    Relisted b { b.rebuilt user with migratedUser := migrated } where
  next := rfl
  positions := rfl
  userPositions := rfl
  indexes u := by
    by_cases hu : u = user
    · subst hu
      exact .inr (by simp [Book.rebuilt])
    · exact .inl (by simp [Book.rebuilt, AList.lookup_insert_ne hu])

theorem within_orRebuild (user : Address) (index : Option (List Nat)) (side : List Nat × List Nat → List Nat) :
    Within Listing (orRebuild user index side) := by
  cases index with
  | some ids => exact within_pure ids
  | none => exact within_bind ⟨fun w => ⟨_, relisted_rebuilt _ user _, rfl⟩⟩ fun _ => within_pure _

theorem within_getOpenPositionIds (user : Address) : Within Listing (getOpenPositionIds user) :=
  within_bind (within_gets _) fun index => within_orRebuild user index _

theorem within_getClosedPositionIds (user : Address) : Within Listing (getClosedPositionIds user) :=
  within_bind (within_gets _) fun index => within_orRebuild user index _

theorem within_getClosed (user : Address) (includeClosed : Bool) :
    Within Listing (getClosed user includeClosed) := by
  refine within_ite ?_ (within_pure _)
  exact within_bind (within_getClosedPositionIds user) fun _ => within_bind (within_gets _) fun _ => within_pure _

theorem within_getPortfolio (user : Address) (includeClosed : Bool) :
    Within Listing (getPortfolio user includeClosed) := by
  refine within_bind (within_getOpenPositionIds user) fun _ => within_bind (within_gets _) fun _ => ?_
  exact within_bind (within_getClosed user includeClosed) fun _ => within_pure _

theorem within_getTradeHistory (user : Address) (cursor : Option Nat) (limit : Nat) :
    Within Listing (getTradeHistory user cursor limit) :=
  within_ite (within_pure _) (within_bind (within_getClosedPositionIds user) fun _ => within_gets _)

theorem within_getTradeHistoryPage (user : Address) (cursor : Option Nat) (limit : Nat) :
    Within Listing (getTradeHistoryPage user cursor limit) := by
  refine within_bind (within_failIf _ _) fun _ => within_bind (within_getClosedPositionIds user) fun _ => ?_
  exact within_bind (within_failIf _ _) fun _ => within_bind (within_gets _) fun _ => within_pure _

/-- A user who is not flagged yet gets both indexes and the flag. -/
theorem within_migrateUser (user : Address) : Within Listing (migrateUser user) where
  moves w := by
    have hstay : Listing w w := refl_of Listing w
    change Listing w (Tx.when _ (do
      let ids ← Tx.gets (·.store.book.ids user)
      _) w).2
    unfold Tx.when
    split
    · change Listing w ((Tx.failIf _ _ >>= _ : P Unit) w).2
      by_cases hmissing : ∃ id ∈ w.store.book.ids user, w.store.book.positions.lookup id = none
      · rw [Tx.failIf, if_pos hmissing]
        exact hstay
      · rw [Tx.failIf, if_neg hmissing]
        change Listing w ((Tx.failIf _ _ >>= _ : P Unit) w).2
        unfold Tx.failIf
        split
        · exact hstay
        · exact ⟨_, relisted_rebuilt _ user _, rfl⟩
    · exact hstay

theorem within_saveQueue (f : Book → List Address) :
    Within Listing (saveBook fun b => { b with migrationQueue := f b }) :=
  ⟨fun w => ⟨{ w.store.book with migrationQueue := f w.store.book }, ⟨rfl, rfl, rfl, fun _ => .inl rfl⟩, rfl⟩⟩

theorem within_requireAdmin (auth : Auth) : Within Listing (requireAdmin auth) :=
  within_bind (within_gets _) fun _ => within_bind (within_ofOption _ _) fun _ => within_failIf _ _

theorem within_registerMigrationUsers (auth : Auth) (users : List Address) :
    Within Listing (registerMigrationUsers auth users) :=
  within_bind (within_requireAdmin auth) fun _ => within_saveQueue _

theorem within_migratePortfolioV1ToV2 (auth : Auth) (batchSize : Nat) :
    Within Listing (migratePortfolioV1ToV2 auth batchSize) := by
  refine within_bind (within_requireAdmin auth) fun _ => within_bind (within_gets _) fun _ => ?_
  refine within_bind (within_each within_migrateUser _) fun _ => ?_
  exact within_bind (within_saveQueue _) fun _ => within_pure _

/-! ## Every event -/

theorem Listing.move {w w' : World} (h : Listing w w') (ev : Event) : Move w ev w' := by
  obtain ⟨b, hb, rfl⟩ := h
  exact .relisted b hb

theorem silent_ok {α : Type} {x : P α} {w w' : World} {e : Option Entry} :
    silent x w = (.ok e, w') ↔ (∃ a, x w = (.ok a, w')) ∧ e = none := by
  rw [silent, bind_ok]
  constructor
  · rintro ⟨a, w₁, hr, hpure⟩
    obtain ⟨rfl, rfl⟩ := pure_ok.mp hpure
    exact ⟨⟨a, hr⟩, rfl⟩
  · rintro ⟨⟨a, hr⟩, rfl⟩
    exact ⟨a, w', hr, rfl⟩

theorem enter_some (w : World) (e : Entry) : w.enter (some e) = w.note e := rfl

/-- An accepted call, and its entry, are one of the moves. -/
theorem move_invoke {w w' : World} {auth : Auth} {c : Call} {e : Option Entry}
    (hrun : invoke auth c w = (.ok e, w')) : Move w (.call auth c) (w'.enter e) := by
  cases c with
  | initializePortfolio admin oracle =>
    obtain ⟨⟨_, hr⟩, rfl⟩ := silent_ok.mp hrun
    obtain ⟨hfirst, rfl⟩ := initializePortfolio_ok hr
    exact .started admin oracle hfirst
  | configure s =>
    obtain ⟨⟨_, hr⟩, rfl⟩ := silent_ok.mp hrun
    rw [configure_ok hr]
    exact .aside _ _ _ _ (s.follows _)
  | openPosition =>
    obtain ⟨id, w₁, hr, hpure⟩ := bind_ok.mp hrun
    obtain ⟨rfl, rfl⟩ := pure_ok.mp hpure
    obtain ⟨hadmits, hfree, hopened⟩ := openPosition_ok hr
    rw [enter_some, hopened]
    refine .opened _ ?_
    rw [openingOf, if_pos hadmits, hfree]
    rfl
  | openPositionWithCapCheck =>
    obtain ⟨id, w₁, hr, hpure⟩ := bind_ok.mp hrun
    obtain ⟨rfl, rfl⟩ := pure_ok.mp hpure
    obtain ⟨hadmits, hfree, hopened⟩ := openPositionWithCapCheck_ok hr
    rw [enter_some, hopened]
    refine .opened _ ?_
    rw [openingOf, if_pos hadmits, hfree]
    rfl
  | closePosition =>
    obtain ⟨_, w₁, hr, hpure⟩ := bind_ok.mp hrun
    obtain ⟨rfl, rfl⟩ := pure_ok.mp hpure
    obtain ⟨hauth, r, h, hreduced⟩ := closePosition_ok hr
    rw [enter_some, hreduced]
    exact .reduced r (by rw [reductionOf, if_pos hauth, h])
  | closePositionKeeper =>
    obtain ⟨_, w₁, hr, hpure⟩ := bind_ok.mp hrun
    obtain ⟨rfl, rfl⟩ := pure_ok.mp hpure
    obtain ⟨hauth, r, h, hreduced⟩ := closePositionKeeper_ok hr
    rw [enter_some, hreduced]
    exact .reduced r (by rw [reductionOf, if_pos hauth, h])
  | closePositionPartial =>
    obtain ⟨left, w₁, hr, hpure⟩ := bind_ok.mp hrun
    obtain ⟨rfl, rfl⟩ := pure_ok.mp hpure
    obtain ⟨hauth, r, h, hreduced⟩ := closePositionPartial_ok hr
    rw [enter_some, hreduced]
    exact .reduced r (by rw [reductionOf, if_pos hauth, h])
  | getPortfolio user includeClosed =>
    obtain ⟨⟨_, hr⟩, rfl⟩ := silent_ok.mp hrun
    exact ((within_getPortfolio user includeClosed).of_run hr).move _
  | getTradeHistory user cursor limit =>
    obtain ⟨⟨_, hr⟩, rfl⟩ := silent_ok.mp hrun
    exact ((within_getTradeHistory user cursor limit).of_run hr).move _
  | getTradeHistoryPage user cursor limit =>
    obtain ⟨⟨_, hr⟩, rfl⟩ := silent_ok.mp hrun
    exact ((within_getTradeHistoryPage user cursor limit).of_run hr).move _
  | registerMigrationUsers users =>
    obtain ⟨⟨_, hr⟩, rfl⟩ := silent_ok.mp hrun
    exact ((within_registerMigrationUsers auth users).of_run hr).move _
  | migratePortfolioV1ToV2 batchSize =>
    obtain ⟨⟨_, hr⟩, rfl⟩ := silent_ok.mp hrun
    exact ((within_migratePortfolioV1ToV2 auth batchSize).of_run hr).move _
  | setAssetExposureCap =>
    obtain ⟨⟨_, hr⟩, rfl⟩ := silent_ok.mp hrun
    obtain ⟨cap, rfl⟩ := setAssetExposureCap_ok hr
    exact .aside _ _ _ _ (.refl _)
  | removeAssetExposureCap =>
    obtain ⟨⟨_, hr⟩, rfl⟩ := silent_ok.mp hrun
    obtain ⟨cap, rfl⟩ := removeAssetExposureCap_ok hr
    exact .aside _ _ _ _ (.refl _)
  | addCostLot =>
    obtain ⟨⟨_, hr⟩, rfl⟩ := silent_ok.mp hrun
    obtain ⟨lots, rfl⟩ := addCostLot_ok hr
    exact .aside _ _ _ _ (.refl _)
  | closeFifo user =>
    obtain ⟨pnl, w₁, hr, hpure⟩ := bind_ok.mp hrun
    obtain ⟨rfl, rfl⟩ := pure_ok.mp hpure
    obtain ⟨lots, hsold⟩ := closeFifo_ok hr
    rw [enter_some, hsold]
    exact .sold user lots pnl

/-- Each event is one of the moves. -/
theorem move_next (w : World) (ev : Event) : Move w ev (next w ev) := by
  cases ev with
  | advance ledger =>
    exact .aside ledger w.store.config w.store.fifo.lots w.store.exposures.cap (.refl _)
  | call auth c =>
    change Move w _ ((invoke auth c).record World.enter w)
    rcases record_cases World.enter (invoke auth c) w with ⟨e, w', hr, heq⟩ | heq
    · rw [heq]
      exact move_invoke hr
    · rw [heq]
      exact .stay w _

end CallStake.UserPortfolio
