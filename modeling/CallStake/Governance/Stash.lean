import CallStake.Governance.Basic

/-!
# The stash of the treasury (`treasury_stash`)

Reserves and day-to-day balances in two buckets, and the authorized moves between them. The ledger is a
value in memory: an operation that fails leaves what it wrote before the failure.

* `moveStashToOperational`, `moveOperationalToStash`: the authorization is consumed, and one bucket is
  written, before the checks that can still fail (`move`).
* `Kept`: both buckets hold what was deposited, and an authorization counts what was moved under it.
* `kept_of_covered`: in every run of covered moves the ledger is kept, and a move that fails leaves it as
  it was.
* `failed_move_consumes`: a move that fails for want of a balance uses up its authorization.
-/

namespace CallStake.Governance

namespace Stash

/-! ## Ledger -/

/-- The two directions of a transfer. -/
inductive StashDirection where
  | stashToOperational
  | operationalToStash
  deriving DecidableEq

/-- How much may be moved between the reserves. -/
structure StashTransferAuth where
  asset : Asset
  proposalId : Nat
  maxAmount : Int
  moved : Int
  direction : StashDirection
  approvedAt : Nat

/-- The two reserves, and what may be moved. -/
structure StashLedger where
  stash : Store Asset Int
  operational : Store Asset Int
  authorizations : Store Asset StashTransferAuth
  lifetimeReleased : Store Asset Int
  lifetimeToppedUp : Store Asset Int
  trackedAssets : List Asset

def emptyStashLedger : StashLedger := ⟨∅, ∅, ∅, ∅, ∅, []⟩

/-- The two balances of an asset. -/
inductive Bucket where
  | stash
  | operational
  deriving DecidableEq

/-- Where a move takes from. -/
def StashDirection.source : StashDirection → Bucket
  | .stashToOperational => .stash
  | .operationalToStash => .operational

/-- Where a move puts. -/
def StashDirection.destination : StashDirection → Bucket
  | .stashToOperational => .operational
  | .operationalToStash => .stash

namespace StashLedger

/-- `stash_balance`, `operational_balance`. -/
def balance (l : StashLedger) : Bucket → Asset → Int
  | .stash, asset => (l.stash.lookup asset).getD 0
  | .operational, asset => (l.operational.lookup asset).getD 0

def setBalance (l : StashLedger) (asset : Asset) (amount : Int) : Bucket → StashLedger
  | .stash => { l with stash := l.stash.insert asset amount }
  | .operational => { l with operational := l.operational.insert asset amount }

/-- What was moved in a direction since the beginning. -/
def lifetime (l : StashLedger) : StashDirection → Asset → Int
  | .stashToOperational, asset => (l.lifetimeReleased.lookup asset).getD 0
  | .operationalToStash, asset => (l.lifetimeToppedUp.lookup asset).getD 0

def setLifetime (l : StashLedger) (asset : Asset) (amount : Int) : StashDirection → StashLedger
  | .stashToOperational => { l with lifetimeReleased := l.lifetimeReleased.insert asset amount }
  | .operationalToStash => { l with lifetimeToppedUp := l.lifetimeToppedUp.insert asset amount }

def setAuthorization (l : StashLedger) (asset : Asset) (auth : StashTransferAuth) : StashLedger :=
  { l with authorizations := l.authorizations.insert asset auth }

def trackAsset (l : StashLedger) (asset : Asset) : StashLedger :=
  if asset ∈ l.trackedAssets then l else { l with trackedAssets := l.trackedAssets ++ [asset] }

end StashLedger

/-! ## Operations -/

/-- An operation on the ledger; what it wrote before a failure stays. -/
abbrev S (α : Type) := Tx StashLedger (Fault GovernanceError) α

/-- A deposit into one bucket. -/
def deposit (bucket : Bucket) (asset : Asset) (amount : Int) : S Int := do
  Tx.failIf (amount ≤ 0) (err .invalidAmount)
  Tx.modify (·.trackAsset asset)
  let current ← Tx.gets (·.balance bucket asset)
  let newBalance ← Tx.ofExcept (checkedAddR current amount)
  Tx.modify (·.setBalance asset newBalance bucket)
  return newBalance

def depositStash (asset : Asset) (amount : Int) : S Int := deposit .stash asset amount

def depositOperational (asset : Asset) (amount : Int) : S Int := deposit .operational asset amount

def authorizeTransfer (asset : Asset) (proposalId : Nat) (maxAmount : Int) (direction : StashDirection)
    (now : Nat) : S StashTransferAuth := do
  Tx.failIf (maxAmount ≤ 0) (err .invalidAmount)
  Tx.modify (·.trackAsset asset)
  let auth := { asset, proposalId, maxAmount, moved := 0, direction, approvedAt := now }
  Tx.modify (·.setAuthorization asset auth)
  return auth

def revokeAuthorization (asset : Asset) : S Unit :=
  Tx.modify fun l => { l with authorizations := l.authorizations.erase asset }

def consumeAuthorization (asset : Asset) (amount : Int) (direction : StashDirection) :
    S StashTransferAuth := do
  let stored ← Tx.gets (·.authorizations.lookup asset)
  let auth ← Tx.ofOption stored (err .unauthorized)
  Tx.failIf (auth.direction ≠ direction) (err .unauthorized)
  let newMoved ← Tx.ofExcept (checkedAddR auth.moved amount)
  Tx.failIf (auth.maxAmount < newMoved) (err .approvedCapExceeded)
  let auth := { auth with moved := newMoved }
  Tx.modify (·.setAuthorization asset auth)
  return auth

/-- A move in one direction. -/
def move (direction : StashDirection) (asset : Asset) (amount : Int) : S Unit := do
  Tx.failIf (amount ≤ 0) (err .invalidAmount)
  let _ ← consumeAuthorization asset amount direction
  let source ← Tx.gets (·.balance direction.source asset)
  Tx.failIf (source < amount) (err .insufficientBalance)
  let destination ← Tx.gets (·.balance direction.destination asset)
  let less ← Tx.ofExcept (checkedSubR source amount)
  Tx.modify (·.setBalance asset less direction.source)
  let more ← Tx.ofExcept (checkedAddR destination amount)
  Tx.modify (·.setBalance asset more direction.destination)
  let current ← Tx.gets (·.lifetime direction asset)
  let total ← Tx.ofExcept (checkedAddR current amount)
  Tx.modify (·.setLifetime asset total direction)

/-- `move_stash_to_operational`. -/
def moveStashToOperational (asset : Asset) (amount : Int) : S Unit := move .stashToOperational asset amount

/-- `move_operational_to_stash`. -/
def moveOperationalToStash (asset : Asset) (amount : Int) : S Unit := move .operationalToStash asset amount

/-! ## What operations do -/

section Fields

variable (l : StashLedger) (asset a : Asset) (n : Int) (b : Bucket) (d : StashDirection)
  (auth : StashTransferAuth)

open StashLedger

theorem balance_setBalance (b' : Bucket) : (l.setBalance asset n b).balance b' a =
    if b' = b ∧ a = asset then n else l.balance b' a := by
  cases b <;> cases b' <;> simp only [setBalance, balance, Store.lookup_insert_eq] <;>
    by_cases h : a = asset <;> simp [h]

theorem lifetime_setLifetime (d' : StashDirection) : (l.setLifetime asset n d).lifetime d' a =
    if d' = d ∧ a = asset then n else l.lifetime d' a := by
  cases d <;> cases d' <;> simp only [setLifetime, lifetime, Store.lookup_insert_eq] <;>
    by_cases h : a = asset <;> simp [h]

@[simp] theorem lifetime_setBalance : (l.setBalance asset n b).lifetime d a = l.lifetime d a := by
  cases b <;> rfl

@[simp] theorem balance_setLifetime : (l.setLifetime asset n d).balance b a = l.balance b a := by
  cases d <;> rfl

@[simp] theorem balance_setAuthorization : (l.setAuthorization asset auth).balance b a = l.balance b a := by
  cases b <;> rfl

@[simp] theorem lifetime_setAuthorization :
    (l.setAuthorization asset auth).lifetime d a = l.lifetime d a := by
  cases d <;> rfl

@[simp] theorem authorizations_setBalance :
    (l.setBalance asset n b).authorizations = l.authorizations := by
  cases b <;> rfl

@[simp] theorem authorizations_setLifetime :
    (l.setLifetime asset n d).authorizations = l.authorizations := by
  cases d <;> rfl

@[simp] theorem balance_trackAsset : (l.trackAsset asset).balance b a = l.balance b a := by
  unfold trackAsset
  split
  · rfl
  · cases b <;> rfl

@[simp] theorem lifetime_trackAsset : (l.trackAsset asset).lifetime d a = l.lifetime d a := by
  unfold trackAsset
  split
  · rfl
  · cases d <;> rfl

@[simp] theorem authorizations_trackAsset : (l.trackAsset asset).authorizations = l.authorizations := by
  unfold trackAsset
  split <;> rfl

end Fields

/-- The ledger after a move. -/
def StashLedger.moved (l : StashLedger) (direction : StashDirection) (asset : Asset) (amount : Int)
    (auth : StashTransferAuth) : StashLedger :=
  (((l.setAuthorization asset { auth with moved := auth.moved + amount }).setBalance asset
    (l.balance direction.source asset - amount) direction.source).setBalance asset
    (l.balance direction.destination asset + amount) direction.destination).setLifetime asset
    (l.lifetime direction asset + amount) direction

/-- The balances are numbers of 128 bits and not negative. -/
structure StashLedger.Bounded (l : StashLedger) : Prop where
  balance (bucket : Bucket) (asset : Asset) : 0 ≤ l.balance bucket asset ∧ l.balance bucket asset ≤ i128Max
  lifetime (direction : StashDirection) (asset : Asset) : 0 ≤ l.lifetime direction asset

/-- If the authorization covers the move, its source has the amount, and there is room for it in the
destination and in the count of what was ever moved. -/
def StashLedger.CoversMove (l : StashLedger) (direction : StashDirection) (asset : Asset) (amount : Int) :
    Prop :=
  0 < amount → ∀ auth ∈ l.authorizations.lookup asset, auth.direction = direction →
    auth.moved + amount ≤ auth.maxAmount →
    amount ≤ l.balance direction.source asset ∧
      l.balance direction.destination asset + amount ≤ i128Max ∧
      l.lifetime direction asset + amount ≤ i128Max

/-- A move that is covered is made, or leaves the ledger as it was. -/
theorem move_cases {l l' : StashLedger} {direction : StashDirection} {asset : Asset} {amount : Int}
    {r : Except (Fault GovernanceError) Unit} (hb : l.Bounded)
    (hc : l.CoversMove direction asset amount) (h : move direction asset amount l = (r, l')) :
    (∃ e, r = .error e ∧ l' = l) ∨
    ∃ auth, r = .ok () ∧ l.authorizations.lookup asset = some auth ∧ auth.direction = direction ∧
      0 < amount ∧ auth.moved + amount ≤ auth.maxAmount ∧
      amount ≤ l.balance direction.source asset ∧
      l.balance direction.destination asset + amount ≤ i128Max ∧
      l' = l.moved direction asset amount auth := by
  cases r with
  | ok u =>
    simp [move, consumeAuthorization]
      at h
    obtain ⟨hpos, auth, ⟨hauth, hd, -, hcap⟩, hsource, -, ⟨-, hroom⟩, -, rfl⟩ := h
    exact .inr ⟨auth, rfl, hauth, hd, hpos, hcap, hsource, hroom, rfl⟩
  | error e =>
    refine .inl ⟨e, rfl, ?_⟩
    simp [move, consumeAuthorization] at h
    rcases h with ⟨-, -, h⟩ | ⟨hpos, h⟩
    · exact h.symm
    rcases h with (⟨-, -, h⟩ | ⟨auth, -, ⟨-, -, h⟩ | ⟨-, ⟨-, h⟩ | ⟨-, -, -, h⟩⟩⟩) |
      ⟨auth, ⟨hauth, hd, -, hcap⟩, h⟩
    · exact h.symm
    · exact h.symm
    · exact h.symm
    · exact h.symm
    -- the authorization is consumed: nothing can fail any more
    obtain ⟨hsource, hroom, hcount⟩ := hc hpos auth hauth hd hcap
    have hs := hb.balance direction.source asset
    have hdest := hb.balance direction.destination asset
    have hl := hb.lifetime direction asset
    have hmin : i128Min ≤ 0 := by decide
    have hsub := (checkedSubR_ok (c := l.balance direction.source asset - amount)).mpr
      ⟨by omega, by omega, rfl⟩
    have hadd := (checkedAddR_ok (c := l.balance direction.destination asset + amount)).mpr
      ⟨by omega, hroom, rfl⟩
    have htotal := (checkedAddR_ok (c := l.lifetime direction asset + amount)).mpr
      ⟨by omega, hcount, rfl⟩
    simp [hsub, hadd, htotal] at h
    omega

/-! ## Runs -/

/-- The operations of the stash. -/
inductive Op where
  | deposit (bucket : Bucket) (asset : Asset) (amount : Int)
  | authorizeTransfer (asset : Asset) (proposalId : Nat) (maxAmount : Int) (direction : StashDirection)
      (now : Nat)
  | revokeAuthorization (asset : Asset)
  | move (direction : StashDirection) (asset : Asset) (amount : Int)

/-- An operation of the ledger. -/
def Op.run : Op → S Unit
  | .deposit .stash asset amount => Tx.void (depositStash asset amount)
  | .deposit .operational asset amount => Tx.void (depositOperational asset amount)
  | .authorizeTransfer asset proposalId maxAmount direction now =>
    Tx.void (Stash.authorizeTransfer asset proposalId maxAmount direction now)
  | .revokeAuthorization asset => Stash.revokeAuthorization asset
  | .move .stashToOperational asset amount => moveStashToOperational asset amount
  | .move .operationalToStash asset amount => moveOperationalToStash asset amount

/-- The ledger with the operations that returned, the newest first. -/
structure Audited where
  ledger : StashLedger
  log : List Op

/-- An operation that fails is not noted; what it wrote stays. -/
def Audited.next (a : Audited) (op : Op) : Audited :=
  match op.run a.ledger with
  | (.ok _, ledger) => ⟨ledger, op :: a.log⟩
  | (.error _, ledger) => { a with ledger }

def Audited.start : Audited := ⟨emptyStashLedger, []⟩

/-- What an operation deposits of `asset` in a bucket. -/
def Op.deposits (bucket : Bucket) (asset : Asset) : Op → Int
  | .deposit b a amount => if b = bucket ∧ a = asset then amount else 0
  | _ => 0

/-- What an operation moves of `asset` in a direction. -/
def Op.moves (direction : StashDirection) (asset : Asset) : Op → Int
  | .move d a amount => if d = direction ∧ a = asset then amount else 0
  | _ => 0

def Op.grants (asset : Asset) : Op → Bool
  | .authorizeTransfer a .. => a = asset
  | _ => false

def deposited (log : List Op) (bucket : Bucket) (asset : Asset) : Int := (log.map (Op.deposits bucket asset)).sum

/-- What was moved since the last authorization of `asset`. -/
def movedSince (log : List Op) (direction : StashDirection) (asset : Asset) : Int :=
  ((log.takeWhile fun op => !op.grants asset).map (Op.moves direction asset)).sum

/-- The ledger agrees with the operations that returned. -/
structure Kept (a : Audited) : Prop where
  bounded : a.ledger.Bounded
  total (asset : Asset) : a.ledger.balance .stash asset + a.ledger.balance .operational asset =
    deposited a.log .stash asset + deposited a.log .operational asset
  stash (asset : Asset) : a.ledger.balance .stash asset +
    a.ledger.lifetime .stashToOperational asset - a.ledger.lifetime .operationalToStash asset =
    deposited a.log .stash asset
  moved (asset : Asset) (auth : StashTransferAuth) :
    a.ledger.authorizations.lookup asset = some auth →
    auth.moved = movedSince a.log auth.direction asset ∧ auth.moved ≤ auth.maxAmount

/-- What the code does not ask: a move that its authorization covers finds the amount and room for it. -/
def Covered (a : Audited) : Op → Prop
  | .move direction asset amount => a.ledger.CoversMove direction asset amount
  | _ => True

instance (a : Audited) (op : Op) : Decidable (Covered a op) :=
  match op with
  | .move .. => inferInstanceAs (Decidable (_ → ∀ auth ∈ _, _))
  | .deposit .. | .authorizeTransfer .. | .revokeAuthorization .. => inferInstanceAs (Decidable True)

section Steps

variable {a : Audited} {l : StashLedger} {asset : Asset} {amount : Int}

theorem deposited_cons (op : Op) (log : List Op) (bucket : Bucket) (x : Asset) :
    deposited (op :: log) bucket x = op.deposits bucket x + deposited log bucket x := List.sum_cons

theorem movedSince_cons (op : Op) (log : List Op) (direction : StashDirection) (x : Asset) :
    movedSince (op :: log) direction x =
      if op.grants x = true then 0 else op.moves direction x + movedSince log direction x := by
  unfold movedSince
  by_cases h : op.grants x = true
  · simp [h]
  · simp [h]

theorem Kept.deposit {bucket : Bucket} {n : Int} (h : Kept a)
    (hop : Stash.deposit bucket asset amount a.ledger = (.ok n, l)) :
    Kept ⟨l, .deposit bucket asset amount :: a.log⟩ := by
  simp [Stash.deposit] at hop
  obtain ⟨hpos, ⟨-, hmax⟩, rfl, rfl⟩ := hop
  refine ⟨⟨?_, ?_⟩, ?_, ?_, ?_⟩
  · intro b x
    have h1 := h.bounded.balance bucket asset
    have h2 := h.bounded.balance b x
    simp [balance_setBalance]
    split <;> omega
  · intro d x
    simpa using h.bounded.lifetime d x
  · intro x
    have := h.total x
    simp [balance_setBalance, deposited_cons, Op.deposits]
    by_cases hx : x = asset
    · subst hx
      cases bucket <;> simp <;> omega
    · simp [hx, Ne.symm hx]
      omega
  · intro x
    have := h.stash x
    simp [balance_setBalance, deposited_cons, Op.deposits]
    by_cases hx : x = asset
    · subst hx
      cases bucket <;> simp <;> omega
    · simp [hx, Ne.symm hx]
      omega
  · intro x auth hauth
    simp at hauth
    obtain ⟨hmoved, hle⟩ := h.moved x auth hauth
    refine ⟨?_, hle⟩
    rw [movedSince_cons, if_neg (by simp [Op.grants]), hmoved]
    exact (Int.zero_add _).symm

theorem Kept.of_authorization {op : Op} (h : Kept a) (hb : ∀ b x, l.balance b x = a.ledger.balance b x)
    (hl : ∀ d x, l.lifetime d x = a.ledger.lifetime d x) (hop : ∀ b x, op.deposits b x = 0)
    (hm : ∀ x auth, l.authorizations.lookup x = some auth →
      auth.moved = movedSince (op :: a.log) auth.direction x ∧ auth.moved ≤ auth.maxAmount) :
    Kept ⟨l, op :: a.log⟩ where
  bounded := ⟨fun b x => by rw [hb]; exact h.bounded.balance b x, fun d x => by rw [hl]; exact h.bounded.lifetime d x⟩
  total x := by
    simp [hb, deposited_cons, hop]
    exact h.total x
  stash x := by
    simp [hb, hl, deposited_cons, hop]
    exact h.stash x
  moved := hm

theorem Kept.authorize {proposalId now : Nat} {maxAmount : Int} {direction : StashDirection}
    {auth : StashTransferAuth} (h : Kept a)
    (hop : authorizeTransfer asset proposalId maxAmount direction now a.ledger = (.ok auth, l)) :
    Kept ⟨l, .authorizeTransfer asset proposalId maxAmount direction now :: a.log⟩ := by
  simp [authorizeTransfer] at hop
  obtain ⟨hpos, -, rfl⟩ := hop
  refine h.of_authorization (by simp) (by simp) (fun _ _ => rfl) fun x auth hauth => ?_
  simp [StashLedger.setAuthorization, Store.lookup_insert_eq] at hauth
  rw [movedSince_cons]
  by_cases hx : x = asset
  · rw [if_pos hx] at hauth
    cases hauth
    rw [if_pos (by simp [Op.grants, hx])]
    exact ⟨rfl, Int.le_of_lt hpos⟩
  · rw [if_neg hx] at hauth
    rw [if_neg (by simp [Op.grants, Ne.symm hx])]
    obtain ⟨hmoved, hle⟩ := h.moved x auth hauth
    exact ⟨hmoved.trans (Int.zero_add _).symm, hle⟩

theorem Kept.revoke {u : Unit} (h : Kept a)
    (hop : revokeAuthorization asset a.ledger = (.ok u, l)) :
    Kept ⟨l, .revokeAuthorization asset :: a.log⟩ := by
  simp [revokeAuthorization] at hop
  subst hop
  refine h.of_authorization (fun b _ => by cases b <;> rfl) (fun d _ => by cases d <;> rfl)
    (fun _ _ => rfl) fun x auth hauth => ?_
  rw [Store.lookup_erase_eq] at hauth
  rw [movedSince_cons, if_neg (by simp [Op.grants])]
  split at hauth
  · cases hauth
  · obtain ⟨hmoved, hle⟩ := h.moved x auth hauth
    exact ⟨hmoved.trans (Int.zero_add _).symm, hle⟩

theorem Kept.move {direction : StashDirection} {auth : StashTransferAuth} (h : Kept a)
    (hauth : a.ledger.authorizations.lookup asset = some auth) (hd : auth.direction = direction)
    (hpos : 0 < amount) (hcap : auth.moved + amount ≤ auth.maxAmount)
    (hsource : amount ≤ a.ledger.balance direction.source asset)
    (hroom : a.ledger.balance direction.destination asset + amount ≤ i128Max) :
    Kept ⟨a.ledger.moved direction asset amount auth, .move direction asset amount :: a.log⟩ := by
  -- a move takes from one bucket of the asset what it adds to the other
  have hbal : ∀ b x, (a.ledger.moved direction asset amount auth).balance b x =
      a.ledger.balance b x + if x = asset then
        (if b = direction.source then -amount else amount) else 0 := by
    intro b x
    simp [StashLedger.moved, balance_setBalance]
    by_cases hx : x = asset
    · subst hx
      cases direction <;> cases b <;> simp [StashDirection.source, StashDirection.destination] <;> omega
    · simp [hx]
  have hlife : ∀ d x, (a.ledger.moved direction asset amount auth).lifetime d x =
      a.ledger.lifetime d x + if x = asset ∧ d = direction then amount else 0 := by
    intro d x
    simp only [StashLedger.moved, lifetime_setLifetime]
    by_cases hx : d = direction ∧ x = asset
    · rw [if_pos hx, if_pos hx.symm, hx.1, hx.2]
    · rw [if_neg hx, if_neg (fun h => hx h.symm)]
      simp
  refine ⟨⟨?_, ?_⟩, ?_, ?_, ?_⟩
  · intro b x
    have hbx := h.bounded.balance b x
    rw [hbal]
    by_cases hx : x = asset
    · subst hx
      cases direction <;> cases b <;>
        simp [StashDirection.source, StashDirection.destination] at * <;>
        omega
    · rw [if_neg hx]
      omega
  · intro d x
    have := h.bounded.lifetime d x
    rw [hlife]
    split <;> omega
  · intro x
    have := h.total x
    simp only [hbal, deposited_cons, Op.deposits]
    cases direction <;> simp [StashDirection.source] <;> split <;> omega
  · intro x
    have := h.stash x
    simp only [hbal, hlife, deposited_cons, Op.deposits]
    cases direction <;> simp [StashDirection.source] <;> split <;> omega
  · intro x auth' hauth'
    simp [StashLedger.moved, StashLedger.setAuthorization, Store.lookup_insert_eq] at hauth'
    rw [movedSince_cons, if_neg (by simp [Op.grants])]
    by_cases hx : x = asset
    · subst hx
      rw [if_pos rfl] at hauth'
      cases hauth'
      obtain ⟨hmoved, -⟩ := h.moved x auth hauth
      refine ⟨?_, hcap⟩
      simp [Op.moves, hd, hmoved]
      omega
    · rw [if_neg hx] at hauth'
      obtain ⟨hmoved, hle⟩ := h.moved x auth' hauth'
      refine ⟨?_, hle⟩
      simp [Op.moves, Ne.symm hx]
      exact hmoved

theorem Kept.track (h : Kept a) : Kept { a with ledger := a.ledger.trackAsset asset } where
  bounded := ⟨by simpa using h.bounded.balance, by simpa using h.bounded.lifetime⟩
  total := by simpa using h.total
  stash := by simpa using h.stash
  moved := by simpa using h.moved

theorem run_deposit (bucket : Bucket) (asset : Asset) (amount : Int) :
    (Op.deposit bucket asset amount).run = Tx.void (Stash.deposit bucket asset amount) := by
  cases bucket <;> rfl

theorem run_move (direction : StashDirection) (asset : Asset) (amount : Int) :
    (Op.move direction asset amount).run = Stash.move direction asset amount := by
  cases direction <;> rfl

theorem Kept.next {op : Op} (h : Kept a) (hc : Covered a op) : Kept (a.next op) := by
  unfold Audited.next
  cases op with
  | deposit bucket asset amount =>
    rw [run_deposit]
    rcases hrun : Tx.void (Stash.deposit bucket asset amount) a.ledger with ⟨r, l⟩
    cases r with
    | ok u =>
      obtain ⟨n, hop⟩ := Tx.void_ok.mp hrun
      exact h.deposit hop
    | error e =>
      simp [Tx.void, Stash.deposit] at hrun
      rcases hrun with ⟨-, -, rfl⟩ | ⟨-, rfl, -⟩
      · exact h
      · exact h.track
  | authorizeTransfer asset proposalId maxAmount direction now =>
    rcases hrun : (Op.authorizeTransfer asset proposalId maxAmount direction now).run a.ledger with ⟨r, l⟩
    cases r with
    | ok u =>
      obtain ⟨auth, hop⟩ := Tx.void_ok.mp hrun
      exact h.authorize hop
    | error e =>
      simp [Op.run, Tx.void, authorizeTransfer] at hrun
      obtain ⟨-, -, rfl⟩ := hrun
      exact h
  | revokeAuthorization => exact h.revoke rfl
  | move direction asset amount =>
    rw [run_move]
    rcases hrun : Stash.move direction asset amount a.ledger with ⟨r, l⟩
    rcases move_cases h.bounded hc hrun with ⟨e, rfl, rfl⟩ |
      ⟨auth, rfl, hauth, hd, hpos, hcap, hsource, hroom, rfl⟩
    · exact h
    · exact h.move hauth hd hpos hcap hsource hroom

theorem Kept.start : Kept .start where
  bounded := ⟨fun b _ => by cases b <;> exact ⟨Int.le_refl 0, (by decide : (0 : Int) ≤ i128Max)⟩,
    fun d _ => by cases d <;> exact Int.le_refl 0⟩
  total _ := rfl
  stash _ := rfl
  moved := by rintro _ _ ⟨⟩

end Steps

/-- In every run in which each move that its authorization covers finds the amount in its source, and room
for it in its destination and in the count of what was ever moved: both balances of every asset hold what
was deposited, an authorization counts what was moved under it, and such a move that fails leaves the
ledger as it was. -/
theorem kept_of_covered {a : Audited}
    (h : Reaches (fun a op a' => Covered a op ∧ a' = Audited.next a op) .start a) :
    (∀ asset, 0 ≤ a.ledger.balance .stash asset ∧ 0 ≤ a.ledger.balance .operational asset ∧
      a.ledger.balance .stash asset + a.ledger.balance .operational asset =
        deposited a.log .stash asset + deposited a.log .operational asset ∧
      a.ledger.balance .stash asset + a.ledger.lifetime .stashToOperational asset -
        a.ledger.lifetime .operationalToStash asset = deposited a.log .stash asset) ∧
    (∀ asset auth, a.ledger.authorizations.lookup asset = some auth →
      auth.moved = movedSince a.log auth.direction asset ∧ auth.moved ≤ auth.maxAmount) ∧
    ∀ direction asset amount e l', Covered a (.move direction asset amount) →
      (Op.move direction asset amount).run a.ledger = (.error e, l') → l' = a.ledger := by
  have hk : Kept a := h.invariant .start fun a op b ha hb => hb.2 ▸ ha.next hb.1
  refine ⟨fun asset => ?_, hk.moved, fun direction asset amount e l' hc hrun => ?_⟩
  · exact ⟨(hk.bounded.balance .stash asset).1, (hk.bounded.balance .operational asset).1, hk.total asset,
      hk.stash asset⟩
  · rw [run_move] at hrun
    rcases move_cases hk.bounded hc hrun with ⟨_, -, heq⟩ | ⟨_, hok, -⟩
    · exact heq
    · cases hok

namespace Sample

def xlm : Asset := ⟨[88], none⟩

/-- Reserves are released, and a part of them comes back. -/
def releasedRun : List Op :=
  [.deposit .stash xlm 1000, .deposit .operational xlm 400,
    .authorizeTransfer xlm 1 1000 .stashToOperational 0, .move .stashToOperational xlm 600,
    .move .stashToOperational xlm 500, .authorizeTransfer xlm 2 300 .operationalToStash 1,
    .move .operationalToStash xlm 250, .deposit .stash xlm (-5)]

/-- The two reserves together have what was deposited in them. -/
theorem released_run_kept :
    let a := releasedRun.foldl Audited.next .start
    a.ledger.balance .stash xlm + a.ledger.balance .operational xlm =
      deposited a.log .stash xlm + deposited a.log .operational xlm ∧ a.log.length = 6 :=
  ⟨((kept_of_covered (Reaches.of_along (by decide +kernel))).1 xlm).2.2.1, by decide +kernel⟩

/-- Reserves of a hundred, and an authorization to move ten thousand. -/
def shortRun : List Op :=
  [.deposit .stash xlm 100, .authorizeTransfer xlm 7 10000 .stashToOperational 0, .move .stashToOperational xlm 500]

/-- The move fails, and its authorization is used up. -/
theorem failed_move_consumes :
    let a := shortRun.foldl Audited.next .start
    a.log.length = 2 ∧ movedSince a.log .stashToOperational xlm = 0 ∧
      (a.ledger.authorizations.lookup xlm).map (·.moved) = some 500 := by
  decide +kernel

end Sample

end Stash

end CallStake.Governance
