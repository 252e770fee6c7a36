import CallStake.Lib.Tx

/-!
# How a computation ends

* `Tx.Ends x Q E s`: from `s`, if `x` returns then `Q` holds of its value and its final state, and if it fails with
  an error that a caller can catch then `E` does. Nothing is said of a trap. The rules follow the constructors of a
  computation, as those of a Hoare logic with a postcondition for errors.
* `Tx.Agree C x y`: the same runs from every state that meets `C`, which every run keeps.
* `Tx.undoing x`: `x` with the writes undone that it made before an error.
-/

namespace CallStake.Tx

variable {σ ε α β : Type}

/-! ## Postconditions -/

def Ends (x : Tx σ (Fault ε) α) (Q : α → σ → Prop) (E : ε → σ → Prop) (s : σ) : Prop :=
  match x s with
  | (.ok a, s') => Q a s'
  | (.error (.err e), s') => E e s'
  | (.error .panic, _) => True

section Ends

variable {x : Tx σ (Fault ε) α} {Q Q' : α → σ → Prop} {E E' : ε → σ → Prop} {s s' : σ}

theorem Ends.of_ok (h : Ends x Q E s) {a : α} (hr : x s = (.ok a, s')) : Q a s' := by
  unfold Ends at h; rwa [hr] at h

theorem Ends.of_error (h : Ends x Q E s) {e : ε} (hr : x s = (.error (.err e), s')) : E e s' := by
  unfold Ends at h; rwa [hr] at h

theorem Ends.mono (h : Ends x Q E s) (hQ : ∀ a s', Q a s' → Q' a s') (hE : ∀ e s', E e s' → E' e s') :
    Ends x Q' E' s := by
  unfold Ends at h ⊢
  split
  · rename_i hr; rw [hr] at h; exact hQ _ _ h
  · rename_i hr; rw [hr] at h; exact hE _ _ h
  · trivial

theorem ends_pure {a : α} (h : Q a s) : Ends (pure a) Q E s := h

theorem ends_fail {e : ε} (h : E e s) : Ends (fail (.err e)) Q E s := h

theorem ends_bind {k : α → Tx σ (Fault ε) β} {P : β → σ → Prop}
    (h : Ends x (fun a s' => Ends (k a) P E s') E s) : Ends (x >>= k) P E s := by
  change match Tx.bind x k s with
    | (.ok b, s') => P b s'
    | (.error (.err e), s') => E e s'
    | (.error .panic, _) => True
  unfold Ends at h
  unfold Tx.bind
  rcases hx : x s with ⟨(e | _) | a, s₁⟩ <;> rw [hx] at h <;> exact h

theorem ends_gets {f : σ → α} (h : Q (f s) s) : Ends (gets f) Q E s := h

theorem ends_modify {f : σ → σ} {P : Unit → σ → Prop} (h : P () (f s)) : Ends (modify f) P E s := h

theorem ends_ite {p : Prop} [Decidable p] {y : Tx σ (Fault ε) α} (hx : p → Ends x Q E s)
    (hy : ¬ p → Ends y Q E s) : Ends (if p then x else y) Q E s := by
  split
  · exact hx ‹_›
  · exact hy ‹_›

theorem ends_failIf {p : Prop} [Decidable p] {e : ε} {P : Unit → σ → Prop} (he : p → E e s) (h : ¬ p → P () s) :
    Ends (failIf p (.err e)) P E s := ends_ite he h

theorem ends_when {p : Prop} [Decidable p] {y : Tx σ (Fault ε) Unit} {P : Unit → σ → Prop}
    (hy : p → Ends y P E s) (h : ¬ p → P () s) : Ends (when p y) P E s := ends_ite hy h

theorem ends_ofOption {o : Option α} {e : ε} (he : o = none → E e s) (h : ∀ a, o = some a → Q a s) :
    Ends (ofOption o (.err e)) Q E s := by
  cases o with
  | none => exact he rfl
  | some a => exact h a rfl

theorem ends_ofExcept {r : Except ε α} (he : ∀ e, r = .error e → E e s) (h : ∀ a, r = .ok a → Q a s) :
    Ends (ofExcept (r.mapError .err)) Q E s := by
  cases r with
  | error e => exact he e rfl
  | ok a => exact h a rfl

theorem ends_void {P : σ → Prop} (h : Ends x (fun _ s' => P s') E s) : Ends (void x) (fun _ s' => P s') E s :=
  ends_bind h

/-! A trap says nothing. -/

theorem ends_orTrap {o : Option α} (h : ∀ a, o = some a → Q a s) : Ends (ofOption o .panic) Q E s := by
  cases o with
  | none => trivial
  | some a => exact h a rfl

theorem ends_trapIf {p : Prop} [Decidable p] {P : Unit → σ → Prop} (h : ¬ p → P () s) :
    Ends (failIf p .panic) P E s := ends_ite (fun _ => trivial) h

/-- A call inside the contract returned, failed with its writes, or trapped and changed nothing. -/
theorem Ends.settle (h : Ends x Q E s) :
    (∃ a, Q a (settle x s)) ∨ (∃ e, E e (settle x s)) ∨ settle x s = s := by
  unfold Ends at h
  unfold Tx.settle
  rcases hr : x s with ⟨(e | _) | a, s'⟩ <;> rw [hr] at h
  · exact .inr (.inl ⟨e, h⟩)
  · exact .inr (.inr rfl)
  · exact .inl ⟨a, h⟩

end Ends

/-! ## Agreement -/

/-- What holds before holds after. -/
def Keeps (C : σ → Prop) (s s' : σ) : Prop := C s → C s'

instance (C : σ → Prop) : IsPreorder σ (Keeps C) where
  refl _ := id
  trans _ _ _ h h' hC := h' (h hC)

/-- The same runs where `C` holds, and `C` holds again after them. -/
structure Agree (C : σ → Prop) (x y : Tx σ ε α) : Prop where
  run : ∀ s, C s → x s = y s
  kept : ∀ s, C s → C (x s).2

section Agree

variable {C : σ → Prop} {x y : Tx σ ε α}

theorem agree_refl (h : Within (Keeps C) x) : Agree C x x := ⟨fun _ _ => rfl, fun s => h.moves s⟩

theorem agree_bind {k k' : α → Tx σ ε β} (hx : Agree C x y) (hk : ∀ a, Agree C (k a) (k' a)) :
    Agree C (x >>= k) (y >>= k') where
  run s hs := by
    change Tx.bind x k s = Tx.bind y k' s
    have hC := hx.kept s hs
    unfold Tx.bind
    rw [← hx.run s hs]
    rcases h : x s with ⟨_ | a, s₁⟩
    · rfl
    · rw [h] at hC
      exact (hk a).run s₁ hC
  kept s hs := by
    change C (Tx.bind x k s).2
    have hC := hx.kept s hs
    unfold Tx.bind
    rcases h : x s with ⟨_ | a, s₁⟩
    · rw [h] at hC
      exact hC
    · rw [h] at hC
      exact (hk a).kept s₁ hC

attribute [class] Agree

instance [hx : Within (Keeps C) x] : Agree C x x := agree_refl hx

instance {k k' : α → Tx σ ε β} [hx : Agree C x y] [hk : ∀ a, Agree C (k a) (k' a)] :
    Agree C (x >>= k) (y >>= k') := agree_bind hx hk

end Agree

/-! ## Undoing -/

/-- `x` as a transaction of its own, whose error is passed on. -/
def undoing (x : Tx σ ε α) : Tx σ ε α := fun s =>
  match x s with
  | (.ok a, s') => (.ok a, s')
  | (.error e, _) => (.error e, s)

theorem undoing_of_ok {x : Tx σ ε α} {s s' : σ} {a : α} (h : x s = (.ok a, s')) : undoing x s = (.ok a, s') := by
  unfold undoing; rw [h]

theorem undoing_of_error {x : Tx σ ε α} {s s' : σ} {e : ε} (h : x s = (.error e, s')) :
    undoing x s = (.error e, s) := by
  unfold undoing; rw [h]

theorem respects_undoing {R : σ → σ → Prop} {x : Tx σ ε α} (hx : Respects R x) : Respects R (undoing x) where
  run s t h := by
    obtain ⟨h1, h2⟩ := hx.run s t h
    unfold undoing
    rcases hs : x s with ⟨r, s'⟩
    rcases ht : x t with ⟨r', t'⟩
    rw [hs, ht] at h1 h2
    change r = r' at h1
    subst h1
    cases r with
    | ok => exact ⟨rfl, h2⟩
    | error => exact ⟨rfl, h⟩

end CallStake.Tx
