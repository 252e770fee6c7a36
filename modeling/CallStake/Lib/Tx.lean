import Mathlib.Logic.Basic
import Mathlib.Logic.Relation

/-!
# Transactions

The computations of a smart contract. `Tx σ ε α` reads and writes a state `σ` and ends with a value
or with an error; the writes made before an error stay visible, since a caller inside the same
contract may catch the error and go on. Only the boundary of a transaction undoes them
(`Tx.exec`): a failed top-level call leaves the state as it was.

* A `Fault` is an error that a caller can catch (`err`), or a trap that ends the transaction
  (`panic`). `Tx.attempt` catches the first kind and keeps the writes.
* The `*_ok`/`*_error` lemmas invert a run: what a computation that returned (or failed) did, one
  step at a time; `bind_*_ok` those of a first step that is known.
* `Tx.Clean x`: an error of `x` comes before its first write, so `x` as a part of a larger call (`Tx.settle`)
  leaves nothing behind when it fails.
* `Tx.Within R x`: `x` moves the state along the preorder `R`, however it ends. The rules follow the
  constructors of a computation, so a frame condition is read off the code.
* `Tx.Respects R x`: `x` has the same outcome from states that `R` relates, and keeps them related.
* `Reaches.invariant`: what every step keeps holds after a run.
-/

namespace CallStake

/-- How a call fails: with an error its caller can catch, or with a trap. -/
inductive Fault (ε : Type) where
  | err (e : ε)
  | panic
  deriving DecidableEq

/-- A fault with its error translated; a trap stays a trap. -/
def Fault.map {ε ε' : Type} (f : ε → ε') : Fault ε → Fault ε'
  | .err e => .err (f e)
  | .panic => .panic

/-- A computation on a state that may fail and then keeps its writes. -/
def Tx (σ ε α : Type) : Type := σ → Except ε α × σ

namespace Tx

variable {σ ρ ε ε' α β : Type}

protected def pure (a : α) : Tx σ ε α := fun s => (.ok a, s)

protected def bind (x : Tx σ ε α) (f : α → Tx σ ε β) : Tx σ ε β := fun s =>
  match x s with
  | (.ok a, s') => f a s'
  | (.error e, s') => (.error e, s')

instance : Monad (Tx σ ε) where
  pure := Tx.pure
  bind := Tx.bind

/-- Ends with an error. -/
def fail (e : ε) : Tx σ ε α := fun s => (.error e, s)

/-- Reads from the state. -/
def gets (f : σ → α) : Tx σ ε α := fun s => (.ok (f s), s)

/-- Writes to the state. -/
def modify (f : σ → σ) : Tx σ ε Unit := fun s => (.ok (), f s)

/-- `if p { return Err(e) }`. -/
def failIf (p : Prop) [Decidable p] (e : ε) : Tx σ ε Unit := if p then fail e else pure ()

/-- `if p { x }`. -/
def when (p : Prop) [Decidable p] (x : Tx σ ε Unit) : Tx σ ε Unit := if p then x else pure ()

/-- `o.ok_or(e)?`. -/
def ofOption (o : Option α) (e : ε) : Tx σ ε α :=
  match o with
  | some a => pure a
  | none => fail e

/-- `r?` for a result that was computed without touching the state. -/
def ofExcept (r : Except ε α) : Tx σ ε α := fun s => (r, s)

/-- The result of `x` as a value: an error is caught, its writes stay, a trap goes on. -/
def attempt (x : Tx σ (Fault ε) α) : Tx σ (Fault ε) (Except ε α) := fun s =>
  match x s with
  | (.ok a, s') => (.ok (.ok a), s')
  | (.error (.err e), s') => (.ok (.error e), s')
  | (.error .panic, s') => (.error .panic, s')

/-- `x` on a part of the state. -/
def zoom (get : σ → ρ) (put : ρ → σ → σ) (x : Tx ρ ε α) : Tx σ ε α := fun s =>
  ((x (get s)).1, put (x (get s)).2 s)

/-- `x.map_err(f)`. -/
def mapErr (f : ε → ε') (x : Tx σ ε α) : Tx σ ε' α := fun s =>
  match x s with
  | (.ok a, s') => (.ok a, s')
  | (.error e, s') => (.error (f e), s')

/-- `x` without its value. -/
def void (x : Tx σ ε α) : Tx σ ε Unit := do
  let _ ← x
  return ()

/-- `for a in l { f(a)?; }`. -/
def each (f : α → Tx σ ε Unit) : List α → Tx σ ε Unit
  | [] => pure ()
  | a :: l => do
    f a
    each f l

/-- A top-level call: a failure leaves the state as it was. -/
def exec (x : Tx σ ε α) (s : σ) : σ :=
  match x s with
  | (.ok _, s') => s'
  | (.error _, _) => s

/-- A top-level call, where what an accepted call returns is entered into the state. -/
def record (enter : σ → α → σ) (x : Tx σ ε α) (s : σ) : σ :=
  match x s with
  | (.ok a, s') => enter s' a
  | (.error _, _) => s

/-- A call inside the contract: an error keeps the writes made before it, a trap undoes them. -/
def settle (x : Tx σ (Fault ε) α) (s : σ) : σ :=
  match x s with
  | (.ok _, s') => s'
  | (.error (.err _), s') => s'
  | (.error .panic, _) => s

/-! ## Inversion -/

section Inversion

variable {s s' : σ} {a b : α} {e : ε}

@[simp] theorem pure_ok : (pure a : Tx σ ε α) s = (.ok b, s') ↔ a = b ∧ s = s' := by
  change ((Except.ok a, s) : Except ε α × σ) = _ ↔ _
  simp

@[simp] theorem pure_error : ¬ (pure a : Tx σ ε α) s = (.error e, s') := by
  change ¬ ((Except.ok a, s) : Except ε α × σ) = _
  simp

@[simp] theorem fail_ok : ¬ (fail e : Tx σ ε α) s = (.ok b, s') := by simp [fail]

@[simp] theorem fail_error {e' : ε} : (fail e : Tx σ ε α) s = (.error e', s') ↔ e = e' ∧ s = s' := by
  simp [fail]

@[simp] theorem gets_ok {f : σ → α} : (gets f : Tx σ ε α) s = (.ok b, s') ↔ f s = b ∧ s = s' := by
  simp [gets]

@[simp] theorem gets_error {f : σ → α} : ¬ (gets f : Tx σ ε α) s = (.error e, s') := by simp [gets]

@[simp] theorem modify_ok {f : σ → σ} {u : Unit} :
    (modify f : Tx σ ε Unit) s = (.ok u, s') ↔ f s = s' := by simp [modify]

@[simp] theorem modify_error {f : σ → σ} : ¬ (modify f : Tx σ ε Unit) s = (.error e, s') := by
  simp [modify]

@[simp] theorem failIf_ok {p : Prop} [Decidable p] {u : Unit} :
    (failIf p e : Tx σ ε Unit) s = (.ok u, s') ↔ ¬ p ∧ s = s' := by
  unfold failIf
  split <;> simp_all

@[simp] theorem failIf_error {p : Prop} [Decidable p] {e' : ε} :
    (failIf p e : Tx σ ε Unit) s = (.error e', s') ↔ p ∧ e = e' ∧ s = s' := by
  unfold failIf
  split <;> simp_all

@[simp] theorem when_ok {p : Prop} [Decidable p] {x : Tx σ ε Unit} {u : Unit} :
    when p x s = (.ok u, s') ↔ if p then x s = (.ok u, s') else s = s' := by
  unfold when
  split <;> simp

theorem when_error {p : Prop} [Decidable p] {x : Tx σ ε Unit} :
    when p x s = (.error e, s') ↔ p ∧ x s = (.error e, s') := by
  unfold when
  split <;> simp_all

@[simp] theorem ofOption_ok {o : Option α} :
    (ofOption o e : Tx σ ε α) s = (.ok b, s') ↔ o = some b ∧ s = s' := by
  cases o <;> simp [ofOption]

@[simp] theorem ofOption_error {o : Option α} {e' : ε} :
    (ofOption o e : Tx σ ε α) s = (.error e', s') ↔ o = none ∧ e = e' ∧ s = s' := by
  cases o <;> simp [ofOption]

@[simp] theorem ofExcept_ok {r : Except ε α} :
    (ofExcept r : Tx σ ε α) s = (.ok b, s') ↔ r = .ok b ∧ s = s' := by simp [ofExcept]

@[simp] theorem ofExcept_error {r : Except ε α} :
    (ofExcept r : Tx σ ε α) s = (.error e, s') ↔ r = .error e ∧ s = s' := by simp [ofExcept]

@[simp] theorem mapError_ok {r : Except ε α} {f : ε → ε'} : r.mapError f = .ok a ↔ r = .ok a := by
  cases r with
  | ok b =>
    change (.ok b : Except ε' α) = .ok a ↔ _
    simp
  | error e =>
    change (.error (f e) : Except ε' α) = .ok a ↔ _
    simp

/-- A sequence returns iff both parts do. -/
@[simp] theorem bind_ok {x : Tx σ ε α} {f : α → Tx σ ε β} {c : β} :
    (x >>= f) s = (.ok c, s') ↔ ∃ a s₁, x s = (.ok a, s₁) ∧ f a s₁ = (.ok c, s') := by
  change Tx.bind x f s = _ ↔ _
  unfold Tx.bind
  rcases h : x s with ⟨r, s₁⟩
  cases r with
  | ok a =>
    constructor
    · intro hf; exact ⟨a, s₁, rfl, hf⟩
    · rintro ⟨a', s₂, he, hf⟩; cases he; exact hf
  | error e =>
    constructor
    · intro hf; cases hf
    · rintro ⟨a', s₂, he, -⟩; cases he

section Peel

variable {k : α → Tx σ ε β} {c : β}

/-! A sequence that starts with a step that is known, without the state in between. -/

theorem bind_gets_ok {f : σ → α} : ((gets f : Tx σ ε α) >>= k) s = (.ok c, s') ↔ k (f s) s = (.ok c, s') := Iff.rfl

theorem bind_modify_ok {f : σ → σ} {k : Unit → Tx σ ε β} :
    ((modify f : Tx σ ε Unit) >>= k) s = (.ok c, s') ↔ k () (f s) = (.ok c, s') := Iff.rfl

theorem bind_failIf_ok {p : Prop} [Decidable p] {k : Unit → Tx σ ε β} :
    ((failIf p e : Tx σ ε Unit) >>= k) s = (.ok c, s') ↔ ¬ p ∧ k () s = (.ok c, s') := by
  simp only [bind_ok, failIf_ok]
  constructor
  · rintro ⟨_, _, ⟨hp, rfl⟩, h⟩; exact ⟨hp, h⟩
  · rintro ⟨hp, h⟩; exact ⟨(), s, ⟨hp, rfl⟩, h⟩

theorem bind_ofOption_ok {o : Option α} :
    ((ofOption o e : Tx σ ε α) >>= k) s = (.ok c, s') ↔ ∃ a, o = some a ∧ k a s = (.ok c, s') := by
  simp only [bind_ok, ofOption_ok]
  constructor
  · rintro ⟨a, _, ⟨ho, rfl⟩, h⟩; exact ⟨a, ho, h⟩
  · rintro ⟨a, ho, h⟩; exact ⟨a, s, ⟨ho, rfl⟩, h⟩

theorem pure_bind_eq (a : α) (k : α → Tx σ ε β) : ((pure a : Tx σ ε α) >>= k) = k a := rfl

theorem bind_assoc_eq {γ : Type} (x : Tx σ ε α) (f : α → Tx σ ε β) (g : β → Tx σ ε γ) :
    (x >>= f) >>= g = x >>= fun a => f a >>= g := by
  funext s
  change Tx.bind (Tx.bind x f) g s = Tx.bind x (fun a => Tx.bind (f a) g) s
  unfold Tx.bind
  rcases x s with ⟨r, s₁⟩
  cases r <;> rfl

theorem bind_ofExcept_ok {r : Except ε α} :
    ((ofExcept r : Tx σ ε α) >>= k) s = (.ok c, s') ↔ ∃ a, r = .ok a ∧ k a s = (.ok c, s') := by
  simp only [bind_ok, ofExcept_ok]
  constructor
  · rintro ⟨a, _, ⟨hr, rfl⟩, h⟩; exact ⟨a, hr, h⟩
  · rintro ⟨a, hr, h⟩; exact ⟨a, s, ⟨hr, rfl⟩, h⟩

end Peel

/-- What a sequence does after its first part, whose run is known. -/
theorem bind_of_ok {x : Tx σ ε α} {f : α → Tx σ ε β} (h : x s = (.ok a, s')) : (x >>= f) s = f a s' := by
  change Tx.bind x f s = _
  rw [Tx.bind, h]

theorem bind_of_error {x : Tx σ ε α} {f : α → Tx σ ε β} (h : x s = (.error e, s')) :
    (x >>= f) s = (.error e, s') := by
  change Tx.bind x f s = _
  rw [Tx.bind, h]

/-- A sequence fails in its first part, or in the second after the first returned. -/
@[simp] theorem bind_error {x : Tx σ ε α} {f : α → Tx σ ε β} :
    (x >>= f) s = (.error e, s') ↔ x s = (.error e, s') ∨ ∃ a s₁, x s = (.ok a, s₁) ∧ f a s₁ = (.error e, s') := by
  change Tx.bind x f s = _ ↔ _
  unfold Tx.bind
  rcases h : x s with ⟨r, s₁⟩
  cases r with
  | ok a =>
    constructor
    · intro hf; exact .inr ⟨a, s₁, rfl, hf⟩
    · rintro (he | ⟨a', s₂, he, hf⟩)
      · cases he
      · cases he; exact hf
  | error e =>
    constructor
    · intro hf; cases hf; exact .inl rfl
    · rintro (he | ⟨a', s₂, he, -⟩)
      · cases he; rfl
      · cases he

theorem attempt_ok {x : Tx σ (Fault ε) α} {r : Except ε α} :
    attempt x s = (.ok r, s') ↔
      (∃ a, r = .ok a ∧ x s = (.ok a, s')) ∨ ∃ e, r = .error e ∧ x s = (.error (.err e), s') := by
  unfold attempt
  rcases h : x s with ⟨q, s₁⟩
  rcases q with (f | a)
  · cases f with
    | err => constructor <;> simp +contextual [eq_comm]
    | panic => simp
  · constructor <;> simp +contextual [eq_comm]

theorem attempt_error {x : Tx σ (Fault ε) α} {f : Fault ε} :
    attempt x s = (.error f, s') ↔ x s = (.error .panic, s') ∧ .panic = f := by
  unfold attempt
  rcases h : x s with ⟨q, s₁⟩
  rcases q with (g | a)
  · cases g with
    | err => simp
    | panic => simp [and_comm]
  · simp

@[simp] theorem zoom_ok {get : σ → ρ} {put : ρ → σ → σ} {x : Tx ρ ε α} :
    zoom get put x s = (.ok a, s') ↔ ∃ t, x (get s) = (.ok a, t) ∧ put t s = s' := by
  unfold zoom
  rcases x (get s) with ⟨r, t⟩
  constructor
  · intro h; cases h; exact ⟨t, rfl, rfl⟩
  · rintro ⟨t', h, rfl⟩; cases h; rfl

@[simp] theorem mapErr_ok {f : ε → ε'} {x : Tx σ ε α} :
    mapErr f x s = (.ok a, s') ↔ x s = (.ok a, s') := by
  unfold mapErr
  rcases x s with ⟨r, t⟩
  cases r <;> simp

@[simp] theorem zoom_error {get : σ → ρ} {put : ρ → σ → σ} {x : Tx ρ ε α} :
    zoom get put x s = (.error e, s') ↔ ∃ t, x (get s) = (.error e, t) ∧ put t s = s' := by
  unfold zoom
  rcases x (get s) with ⟨r, t⟩
  constructor
  · intro h; cases h; exact ⟨t, rfl, rfl⟩
  · rintro ⟨t', h, rfl⟩; cases h; rfl

@[simp] theorem mapErr_error {f : ε → ε'} {x : Tx σ ε α} {e' : ε'} :
    mapErr f x s = (.error e', s') ↔ ∃ e, x s = (.error e, s') ∧ f e = e' := by
  unfold mapErr
  rcases x s with ⟨r, t⟩
  cases r with
  | ok a => simp
  | error e =>
    constructor
    · intro h; cases h; exact ⟨e, rfl, rfl⟩
    · rintro ⟨e₀, h, rfl⟩; cases h; rfl

@[simp] theorem void_ok {x : Tx σ ε α} {u : Unit} :
    void x s = (.ok u, s') ↔ ∃ a, x s = (.ok a, s') := by
  simp [void]

theorem exec_of_ok {x : Tx σ ε α} (h : x s = (.ok a, s')) : exec x s = s' := by
  simp [exec, h]

theorem exec_of_error {x : Tx σ ε α} (h : x s = (.error e, s')) : exec x s = s := by
  simp [exec, h]

/-- A transaction either returned, with its final state, or changed nothing. -/
theorem exec_cases (x : Tx σ ε α) (s : σ) : (∃ a, x s = (.ok a, exec x s)) ∨ exec x s = s := by
  rcases h : x s with ⟨r, s₁⟩
  cases r with
  | ok a => exact .inl ⟨a, by rw [exec_of_ok h]⟩
  | error e => exact .inr (by simp [exec, h])

/-- A transaction either returned, and what it returned was entered, or changed nothing. -/
theorem record_cases (enter : σ → α → σ) (x : Tx σ ε α) (s : σ) :
    (∃ a s', x s = (.ok a, s') ∧ record enter x s = enter s' a) ∨ record enter x s = s := by
  rcases h : x s with ⟨r, s₁⟩
  cases r with
  | ok a => exact .inl ⟨a, s₁, rfl, by rw [record, h]⟩
  | error e => exact .inr (by rw [record, h])

end Inversion

/-! ## Errors before writes -/

/-- `x` does not write. -/
def Reads (x : Tx σ ε α) : Prop := ∀ s, (x s).2 = s

/-- An error that a caller can catch comes before the first write. -/
structure Clean (x : Tx σ (Fault ε) α) : Prop where
  unchanged : ∀ s e s', x s = (.error (.err e), s') → s' = s

section Clean

theorem reads_gets (f : σ → α) : Reads (gets f : Tx σ ε α) := fun _ => rfl

theorem reads_ofOption (o : Option α) (e : ε) : Reads (ofOption o e : Tx σ ε α) := by
  cases o <;> exact fun _ => rfl

theorem reads_failIf (p : Prop) [Decidable p] (e : ε) : Reads (failIf p e : Tx σ ε Unit) := by
  intro s
  unfold failIf
  split <;> rfl

theorem reads_bind {x : Tx σ ε α} {k : α → Tx σ ε β} (hx : Reads x) (hk : ∀ a, Reads (k a)) :
    Reads (x >>= k) := by
  intro s
  have hs := hx s
  change (Tx.bind x k s).2 = s
  unfold Tx.bind
  rcases h : x s with ⟨r, s₁⟩
  rw [h] at hs
  obtain rfl : s₁ = s := hs
  cases r with
  | ok a => exact hk a s₁
  | error e => rfl

theorem clean_of_total {x : Tx σ (Fault ε) α} (h : ∀ s e s', x s ≠ (.error (.err e), s')) : Clean x :=
  ⟨fun s e s' he => absurd he (h s e s')⟩

/-- A sequence that starts with a read fails with the state as it was, or after the read. -/
theorem bind_error_of_reads {x : Tx σ ε α} {k : α → Tx σ ε β} (hx : Reads x) {s s' : σ} {e : ε}
    (h : (x >>= k) s = (.error e, s')) : s' = s ∨ ∃ a, x s = (.ok a, s) ∧ k a s = (.error e, s') := by
  have hs := hx s
  rcases bind_error.mp h with he | ⟨a, s₁, ha, he⟩
  · rw [he] at hs
    exact .inl hs
  · rw [ha] at hs
    obtain rfl : s₁ = s := hs
    exact .inr ⟨a, ha, he⟩

/-- A sequence that starts with a read and returns goes on in the same state. -/
theorem bind_ok_of_reads {x : Tx σ ε α} {k : α → Tx σ ε β} (hx : Reads x) {s s' : σ} {b : β}
    (h : (x >>= k) s = (.ok b, s')) : ∃ a, k a s = (.ok b, s') := by
  obtain ⟨a, s₁, ha, hk⟩ := bind_ok.mp h
  have hs := hx s
  rw [ha] at hs
  obtain rfl : s₁ = s := hs
  exact ⟨a, hk⟩

theorem clean_bind {x : Tx σ (Fault ε) α} {k : α → Tx σ (Fault ε) β} (hx : Reads x)
    (hk : ∀ a, Clean (k a)) : Clean (x >>= k) where
  unchanged s e s' h := by
    obtain heq | ⟨a, -, he⟩ := bind_error_of_reads hx h
    · exact heq
    · exact (hk a).unchanged s e s' he

theorem clean_void {x : Tx σ (Fault ε) α} (h : Clean x) : Clean (void x) where
  unchanged s e s' he := by
    rcases bind_error.mp he with he | ⟨a, s₁, -, he⟩
    · exact h.unchanged s e s' he
    · exact absurd he pure_error

/-- A clean call returned, with its final state, or changed nothing. -/
theorem settle_cases {x : Tx σ (Fault ε) α} (hx : Clean x) (s : σ) :
    (∃ a, x s = (.ok a, settle x s)) ∨ settle x s = s := by
  unfold settle
  rcases h : x s with ⟨r, s'⟩
  rcases r with (e | _) | a
  · exact .inr (hx.unchanged s e s' h)
  · exact .inr rfl
  · exact .inl ⟨a, rfl⟩

end Clean

/-! ## Frame conditions -/

/-- Every run of `x`, however it ends, moves the state along `R`. -/
structure Within (R : σ → σ → Prop) (x : Tx σ ε α) : Prop where
  moves : ∀ s, R s (x s).2

section Within

variable {R : σ → σ → Prop}

theorem within_attempt {x : Tx σ (Fault ε) α} (hx : Within R x) : Within R (attempt x) where
  moves s := by
    have h := hx.moves s
    unfold attempt
    split <;> (rename_i he; rw [he] at h; exact h)

theorem within_mapErr {x : Tx σ ε α} (g : ε → ε') (hx : Within R x) : Within R (mapErr g x) where
  moves s := by
    have h := hx.moves s
    unfold mapErr
    split <;> (rename_i he; rw [he] at h; exact h)

theorem within_zoom {get : σ → ρ} {put : ρ → σ → σ} (x : Tx ρ ε α) (h : ∀ t s, R s (put t s)) :
    Within R (zoom get put x) := ⟨fun s => h _ s⟩

theorem within_ite {p : Prop} [Decidable p] {x y : Tx σ ε α} (hx : Within R x) (hy : Within R y) :
    Within R (if p then x else y) := by
  split
  · exact hx
  · exact hy

theorem within_of_void {x : Tx σ ε α} (h : Within R (void x)) : Within R x where
  moves s := by
    have hm : R s (Tx.bind x (fun _ => Tx.pure ()) s).2 := h.moves s
    unfold Tx.bind at hm
    rcases hx : x s with ⟨r, s'⟩
    rw [hx] at hm
    cases r <;> exact hm

theorem Within.of_run {x : Tx σ ε α} (h : Within R x) {s s' : σ} {r : Except ε α}
    (hr : x s = (r, s')) : R s s' := by
  have := h.moves s; rwa [hr] at this

variable [IsPreorder σ R]

/-- A computation that only reads moves nowhere. -/
theorem within_of_reads {x : Tx σ ε α} (h : ∀ s, (x s).2 = s) : Within R x where
  moves s := by rw [h s]; exact refl_of R s

@[simp] theorem within_pure (a : α) : Within R (pure a : Tx σ ε α) := within_of_reads fun _ => rfl

@[simp] theorem within_fail (e : ε) : Within R (fail e : Tx σ ε α) := within_of_reads fun _ => rfl

@[simp] theorem within_gets (g : σ → α) : Within R (gets g : Tx σ ε α) := within_of_reads fun _ => rfl

@[simp] theorem within_ofExcept (r : Except ε α) : Within R (ofExcept r : Tx σ ε α) := within_of_reads fun _ => rfl

@[simp] theorem within_ofOption (o : Option α) (e : ε) : Within R (ofOption o e : Tx σ ε α) := by
  cases o <;> exact within_of_reads fun _ => rfl

@[simp] theorem within_failIf (p : Prop) [Decidable p] (e : ε) :
    Within R (failIf p e : Tx σ ε Unit) := by
  unfold failIf
  split
  · exact within_fail e
  · exact within_pure ()

theorem within_when {p : Prop} [Decidable p] {x : Tx σ ε Unit} (hx : Within R x) :
    Within R (when p x) := within_ite hx (within_pure ())

theorem within_bind {x : Tx σ ε α} {k : α → Tx σ ε β} (hx : Within R x)
    (hk : ∀ a, Within R (k a)) : Within R (x >>= k) where
  moves s := by
    change R s (Tx.bind x k s).2
    have h := hx.moves s
    unfold Tx.bind
    split
    · rename_i a s' he; rw [he] at h; exact trans_of R h ((hk a).moves s')
    · rename_i e s' he; rw [he] at h; exact h

theorem within_each {f : α → Tx σ ε Unit} (hf : ∀ a, Within R (f a)) (l : List α) : Within R (each f l) := by
  induction l with
  | nil => exact within_pure ()
  | cons a l ih => exact within_bind (hf a) fun _ => ih

theorem within_void {x : Tx σ ε α} (hx : Within R x) : Within R (void x) := within_bind hx fun _ => within_pure ()

/-! The rules as instances, so that instance resolution follows the code of a computation. -/

attribute [class] Within

attribute [instance] within_pure within_fail within_gets within_ofExcept within_ofOption within_failIf

instance {p : Prop} [Decidable p] {x y : Tx σ ε α} [hx : Within R x] [hy : Within R y] :
    Within R (if p then x else y) := within_ite hx hy

instance {b : Bool} {x y : Tx σ ε α} [hx : Within R x] [hy : Within R y] : Within R (bif b then x else y) := by
  cases b <;> assumption

instance {p : Prop} [Decidable p] {x : Tx σ ε Unit} [hx : Within R x] : Within R (when p x) := within_when hx

instance {x : Tx σ ε α} {k : α → Tx σ ε β} [hx : Within R x] [hk : ∀ a, Within R (k a)] : Within R (x >>= k) :=
  within_bind hx hk

instance {f : α → Tx σ ε Unit} [hf : ∀ a, Within R (f a)] (l : List α) : Within R (each f l) := within_each hf l

instance {x : Tx σ ε α} [hx : Within R x] : Within R (void x) := within_void hx

instance {x : Tx σ (Fault ε) α} [hx : Within R x] : Within R (attempt x) := within_attempt hx

instance {x : Tx σ ε α} (g : ε → ε') [hx : Within R x] : Within R (mapErr g x) := within_mapErr g hx

/-! A list of the parts that may be written. -/

instance {ι : Type} {a : ι} {l : List ι} : Fact (a ∈ a :: l) := ⟨.head l⟩

instance {ι : Type} {a b : ι} {l : List ι} [h : Fact (a ∈ l)] : Fact (a ∈ b :: l) := ⟨.tail b h.out⟩

/-! What a write leaves alone, or may write. -/

instance {α β : Type} {f : α → β} : Fact (∀ a, f a = f a) := ⟨fun _ => rfl⟩

instance {p q : Prop} [h : Fact p] : Fact (p ∨ q) := ⟨.inl h.out⟩

instance {p q : Prop} [h : Fact q] : Fact (p ∨ q) := ⟨.inr h.out⟩

/-- Where a computation moves, its transaction does. -/
theorem Within.exec {x : Tx σ ε α} (h : Within R x) (s : σ) : R s (x.exec s) := by
  rcases exec_cases x s with ⟨a, ha⟩ | h0
  · have := h.moves s; rw [ha] at this; exact this
  · rw [h0]; exact refl_of R s

end Within

/-! ## Two runs -/

/-- From related states `x` has the same outcome, and ends in related states. -/
structure Respects (R : σ → σ → Prop) (x : Tx σ ε α) : Prop where
  run : ∀ s t, R s t → (x s).1 = (x t).1 ∧ R (x s).2 (x t).2

section Respects

variable {R : σ → σ → Prop}

theorem respects_pure (a : α) : Respects R (pure a : Tx σ ε α) := ⟨fun _ _ h => ⟨rfl, h⟩⟩

theorem respects_fail (e : ε) : Respects R (fail e : Tx σ ε α) := ⟨fun _ _ h => ⟨rfl, h⟩⟩

theorem respects_gets {f : σ → α} (hf : ∀ s t, R s t → f s = f t) : Respects R (gets f : Tx σ ε α) :=
  ⟨fun s t h => ⟨congrArg Except.ok (hf s t h), h⟩⟩

theorem respects_modify {f : σ → σ} (hf : ∀ s t, R s t → R (f s) (f t)) :
    Respects R (modify f : Tx σ ε Unit) := ⟨fun s t h => ⟨rfl, hf s t h⟩⟩

theorem respects_ofOption (o : Option α) (e : ε) : Respects R (ofOption o e : Tx σ ε α) := by
  cases o with
  | none => exact respects_fail e
  | some a => exact respects_pure a

theorem respects_ite {p : Prop} [Decidable p] {x y : Tx σ ε α} (hx : Respects R x) (hy : Respects R y) :
    Respects R (if p then x else y) := by
  split
  · exact hx
  · exact hy

theorem respects_failIf (p : Prop) [Decidable p] (e : ε) : Respects R (failIf p e : Tx σ ε Unit) :=
  respects_ite (respects_fail e) (respects_pure ())

theorem respects_when {p : Prop} [Decidable p] {x : Tx σ ε Unit} (hx : Respects R x) :
    Respects R (when p x) := respects_ite hx (respects_pure ())

theorem respects_bind {x : Tx σ ε α} {k : α → Tx σ ε β} (hx : Respects R x)
    (hk : ∀ a, Respects R (k a)) : Respects R (x >>= k) where
  run s t h := by
    change (Tx.bind x k s).1 = (Tx.bind x k t).1 ∧ R (Tx.bind x k s).2 (Tx.bind x k t).2
    obtain ⟨h1, h2⟩ := hx.run s t h
    unfold Tx.bind
    rcases hs : x s with ⟨r, s'⟩
    rcases ht : x t with ⟨r', t'⟩
    rw [hs, ht] at h1 h2
    change r = r' at h1
    subst h1
    cases r with
    | ok a => exact (hk a).run s' t' h2
    | error e => exact ⟨rfl, h2⟩

theorem respects_mapErr {x : Tx σ ε α} (g : ε → ε') (hx : Respects R x) : Respects R (mapErr g x) where
  run s t h := by
    obtain ⟨h1, h2⟩ := hx.run s t h
    unfold mapErr
    rcases hs : x s with ⟨r, s'⟩
    rcases ht : x t with ⟨r', t'⟩
    rw [hs, ht] at h1 h2
    change r = r' at h1
    subst h1
    cases r <;> exact ⟨rfl, h2⟩

theorem respects_attempt {x : Tx σ (Fault ε) α} (hx : Respects R x) : Respects R (attempt x) where
  run s t h := by
    obtain ⟨h1, h2⟩ := hx.run s t h
    unfold attempt
    rcases hs : x s with ⟨r, s'⟩
    rcases ht : x t with ⟨r', t'⟩
    rw [hs, ht] at h1 h2
    change r = r' at h1
    subst h1
    rcases r with (_ | _) | _ <;> exact ⟨rfl, h2⟩

end Respects

end Tx

/-! ## Runs -/

/-- `s'` is reached from `s` by steps labelled with events, each allowed where it is taken. -/
def Reaches {σ ι : Type} (step : σ → ι → σ → Prop) (s s' : σ) : Prop :=
  Relation.ReflTransGen (fun a b => ∃ i, step a i b) s s'

namespace Reaches

variable {σ ι : Type} {step step' : σ → ι → σ → Prop} {s s' s'' : σ}

theorem refl (s : σ) : Reaches step s s := Relation.ReflTransGen.refl

theorem tail (h : Reaches step s s') {i : ι} (hs : step s' i s'') : Reaches step s s'' :=
  Relation.ReflTransGen.tail h ⟨i, hs⟩

theorem trans (h : Reaches step s s') (h' : Reaches step s' s'') : Reaches step s s'' :=
  Relation.ReflTransGen.trans h h'

/-- What holds at the start and is kept by every step holds after the run. -/
theorem invariant {I : σ → Prop} (h : Reaches step s s') (h0 : I s)
    (hstep : ∀ a i b, I a → step a i b → I b) : I s' := by
  induction h with
  | refl => exact h0
  | tail _ hst ih => obtain ⟨i, hi⟩ := hst; exact hstep _ i _ ih hi

/-- Running a list of events with a step function is a run. -/
theorem foldl (next : σ → ι → σ) (s : σ) (l : List ι) :
    Reaches (fun a i b => b = next a i) s (l.foldl next s) := by
  induction l generalizing s with
  | nil => exact refl s
  | cons i l ih => exact trans (tail (refl s) rfl) (ih (next s i))

/-- Every event of the list satisfies `ok` in the state in which its turn comes. -/
def Along (next : σ → ι → σ) (ok : σ → ι → Prop) : σ → List ι → Prop
  | _, [] => True
  | s, i :: l => ok s i ∧ Along next ok (next s i) l

instance decidableAlong (next : σ → ι → σ) (ok : σ → ι → Prop) [∀ s i, Decidable (ok s i)] :
    (s : σ) → (l : List ι) → Decidable (Along next ok s l)
  | _, [] => inferInstanceAs (Decidable True)
  | s, i :: l =>
    have := decidableAlong next ok (next s i) l
    inferInstanceAs (Decidable (_ ∧ _))

/-- Running a list of events that are allowed where they are taken is a run. -/
theorem of_along {next : σ → ι → σ} {ok : σ → ι → Prop} {l : List ι} (h : Along next ok s l) :
    Reaches (fun a i b => ok a i ∧ b = next a i) s (l.foldl next s) := by
  induction l generalizing s with
  | nil => exact refl s
  | cons i l ih => exact trans (tail (refl s) ⟨h.1, rfl⟩) (ih h.2)

/-- The same for events that also meet a condition. -/
theorem of_along_and {next : σ → ι → σ} {C ok : σ → ι → Prop} {l : List ι}
    (h : Along next (fun s i => C s i ∧ ok s i) s l) :
    Reaches (fun a i b => C a i ∧ ok a i ∧ b = next a i) s (l.foldl next s) := by
  induction l generalizing s with
  | nil => exact refl s
  | cons i l ih => exact trans (tail (refl s) ⟨h.1.1, h.1.2, rfl⟩) (ih h.2)

/-- The events of a list with the states in which their turn comes. -/
def visited (next : σ → ι → σ) : σ → List ι → List (σ × ι)
  | _, [] => []
  | s, i :: l => (s, i) :: visited next (next s i) l

theorem mem_of_mem_visited {next : σ → ι → σ} {l : List ι} {e : σ × ι} (h : e ∈ visited next s l) :
    e.2 ∈ l := by
  induction l generalizing s with
  | nil => cases h
  | cons i l ih =>
    rcases List.mem_cons.mp h with rfl | h
    · exact List.mem_cons_self ..
    · exact List.mem_cons_of_mem _ (ih h)

section Visited

variable {next next' : σ → ι → σ} {ok : σ → ι → Prop} {P : σ → Prop} {l : List ι}

/-- What every event of the list keeps where its turn comes, the list keeps. -/
theorem foldl_rule (hstep : ∀ e ∈ visited next s l, P e.1 → P (next e.1 e.2)) (h0 : P s) :
    P (l.foldl next s) := by
  induction l generalizing s with
  | nil => exact h0
  | cons i l ih =>
    have h1 := hstep (s, i) (List.mem_cons_self ..) h0
    exact ih (fun e he => hstep e (List.mem_cons_of_mem _ he)) h1

theorem visited_rule (hstep : ∀ s i, P s → P (next s i)) (h0 : P s) :
    ∀ e ∈ visited next s l, P e.1 := by
  induction l generalizing s with
  | nil => intro e he; cases he
  | cons i l ih =>
    intro e he
    rcases List.mem_cons.mp he with rfl | he
    · exact h0
    · exact ih (hstep s i h0) e he

/-- Two ways to take an event that agree where it is `ok` lead to the same states along a list of
such events. -/
theorem along_iff_visited (hP : ∀ s i, P s → P (next' s i))
    (heq : ∀ s i, P s → ok s i → next s i = next' s i) (h0 : P s) :
    Along next ok s l ↔ ∀ e ∈ visited next' s l, ok e.1 e.2 := by
  induction l generalizing s with
  | nil => simp [Along, visited]
  | cons i l ih =>
    simp only [Along, visited, List.forall_mem_cons]
    refine and_congr_right fun hok => ?_
    rw [heq s i h0 hok]
    exact ih (hP s i h0)

theorem foldl_eq_of_along (hP : ∀ s i, P s → P (next' s i))
    (heq : ∀ s i, P s → ok s i → next s i = next' s i) (h0 : P s) (h : Along next ok s l) :
    l.foldl next s = l.foldl next' s := by
  induction l generalizing s with
  | nil => rfl
  | cons i l ih =>
    obtain ⟨hok, h⟩ := h
    simp
    rw [heq s i h0 hok] at h ⊢
    exact ih (hP s i h0) h

/-- Where an event is `ok` iff it leaves the view of the state alone when it is silent, the two ways
lead to the same view, with no silent change on the second, iff all events are `ok` on the first. -/
theorem foldl_agree_iff {β : Type} {silent : σ → ι → Prop} (view : σ → β)
    (hP : ∀ s i, P s → P (next' s i)) (heq : ∀ s i, P s → ok s i → next s i = next' s i)
    (hok : ∀ s i, P s → (ok s i ↔ (silent s i → view (next' s i) = view s))) (h0 : P s) :
    (view (l.foldl next' s) = view (l.foldl next s) ∧
      ∀ e ∈ visited next' s l, silent e.1 e.2 → view (next' e.1 e.2) = view e.1) ↔
    Along next ok s l := by
  have hall : (∀ e ∈ visited next' s l, silent e.1 e.2 → view (next' e.1 e.2) = view e.1) ↔
      Along next ok s l := by
    rw [along_iff_visited hP heq h0]
    have hvisited := visited_rule (l := l) hP h0
    exact forall₂_congr fun e he => (hok e.1 e.2 (hvisited e he)).symm
  rw [hall]
  exact and_iff_right_of_imp fun h => by rw [foldl_eq_of_along hP heq h0 h]

end Visited

/-- A run of a system is a run of any system that allows its steps. -/
theorem mono (h : Reaches step s s') (hm : ∀ a i b, step a i b → step' a i b) :
    Reaches step' s s' :=
  Relation.ReflTransGen.mono (fun _ _ ⟨i, hi⟩ => ⟨i, hm _ i _ hi⟩) _ _ h

end Reaches

end CallStake
