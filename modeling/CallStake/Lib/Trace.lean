import CallStake.Lib.Tx

/-!
# Runs with their history

A property that speaks of what happened before is a property of a run together with its history: the
events that were taken, each with the state in which it was taken.

* `Trace step s₀ hist s`: the run `hist`, newest event first, leads from `s₀` to `s`.
* `Trace.invariant`: what every step keeps, of the state and the history, holds after a run.
* `Trace.split`: a run up to one of its events, and the run after it.
* `Trace.Every P hist`: `P` holds of every event, of the state it was taken in and of the history
  before it; `Trace.every_imp` and `Trace.every_of_invariant` prove it event by event, with an invariant of
  the run.
* `Trace.of_along`: running a list of events that are allowed where they are taken.

A module of a contract that is used through a few operations has a journal: its storage, the time, and the operations
that were accepted, newest first. An operation that fails leaves no trace.

* `Journal.commit`: one operation; `Journal.commit_cases`: it was entered, or nothing happened.
-/

namespace CallStake

/-- `s` is reached from `s₀` by the events of the history. -/
inductive Trace {σ ι : Type} (step : σ → ι → σ → Prop) (s₀ : σ) : List (σ × ι) → σ → Prop where
  | nil : Trace step s₀ [] s₀
  | snoc {hist : List (σ × ι)} {s s' : σ} {i : ι} (h : Trace step s₀ hist s) (hs : step s i s') :
    Trace step s₀ ((s, i) :: hist) s'

namespace Trace

variable {σ ι : Type} {step : σ → ι → σ → Prop} {s₀ s : σ} {hist : List (σ × ι)}

theorem reaches (h : Trace step s₀ hist s) : Reaches step s₀ s := by
  induction h with
  | nil => exact .refl s₀
  | snoc _ hs ih => exact ih.tail hs

/-- What holds at the start and is kept by every step holds after the run. -/
theorem invariant {I : List (σ × ι) → σ → Prop} (h : Trace step s₀ hist s) (h0 : I [] s₀)
    (hstep : ∀ hist a i b, I hist a → step a i b → I ((a, i) :: hist) b) : I hist s := by
  induction h with
  | nil => exact h0
  | snoc _ hs ih => exact hstep _ _ _ _ ih hs

/-- Every event of the history satisfies `P`, which may look at the history before the event. -/
def Every (P : List (σ × ι) → σ → ι → Prop) : List (σ × ι) → Prop
  | [] => True
  | (a, i) :: hist => P hist a i ∧ Every P hist

/-- With an invariant of the run, `C` gives `P` for every event. -/
theorem every_imp {I : List (σ × ι) → σ → Prop} {C P : List (σ × ι) → σ → ι → Prop}
    (h : Trace step s₀ hist s) (h0 : I [] s₀)
    (hstep : ∀ hist a i b, I hist a → step a i b → I ((a, i) :: hist) b)
    (hP : ∀ hist a i b, I hist a → step a i b → C hist a i → P hist a i) (hC : Every C hist) :
    Every P hist := by
  induction h with
  | nil => trivial
  | snoc h hs ih =>
    have hI := h.invariant h0 hstep
    exact ⟨hP _ _ _ _ hI hs hC.1, ih hC.2⟩

/-- With an invariant of the run, `P` holds of every event. -/
theorem every_of_invariant {I : List (σ × ι) → σ → Prop} {P : List (σ × ι) → σ → ι → Prop}
    (h : Trace step s₀ hist s) (h0 : I [] s₀)
    (hstep : ∀ hist a i b, I hist a → step a i b → I ((a, i) :: hist) b)
    (hP : ∀ hist a i b, I hist a → step a i b → P hist a i) : Every P hist := by
  induction h with
  | nil => trivial
  | snoc h hs ih => exact ⟨hP _ _ _ _ (h.invariant h0 hstep) hs, ih⟩

theorem every_congr {P Q : List (σ × ι) → σ → ι → Prop} (h : ∀ hist s i, P hist s i ↔ Q hist s i) :
    Every P hist ↔ Every Q hist := by
  induction hist with
  | nil => exact Iff.rfl
  | cons e hist ih => exact and_congr (h hist e.1 e.2) ih

instance decidableEvery (P : List (σ × ι) → σ → ι → Prop) [∀ hist s i, Decidable (P hist s i)] :
    (hist : List (σ × ι)) → Decidable (Every P hist)
  | [] => inferInstanceAs (Decidable True)
  | (_, _) :: hist =>
    have := decidableEvery P hist
    inferInstanceAs (Decidable (_ ∧ _))

/-- A run of a system is a run of any system that allows its steps. -/
theorem mono {step' : σ → ι → σ → Prop} (h : Trace step s₀ hist s)
    (hm : ∀ a i b, step a i b → step' a i b) : Trace step' s₀ hist s := by
  induction h with
  | nil => exact .nil
  | snoc _ hs ih => exact ih.snoc (hm _ _ _ hs)

/-- The run before an event, the event, and the run after it. -/
theorem split {later earlier : List (σ × ι)} {s₁ : σ} {i : ι}
    (h : Trace step s₀ (later ++ (s₁, i) :: earlier) s) :
    Trace step s₀ earlier s₁ ∧ ∃ s₂, step s₁ i s₂ ∧ Trace step s₂ later s := by
  induction later generalizing s with
  | nil => cases h with | snoc h hs => exact ⟨h, _, hs, .nil⟩
  | cons e later ih =>
    cases h with
    | snoc h hs =>
      obtain ⟨h1, s₂, h2, h3⟩ := ih h
      exact ⟨h1, s₂, h2, h3.snoc hs⟩

/-- Every event of the history was a step. -/
theorem mem_step (h : Trace step s₀ hist s) : ∀ e ∈ hist, ∃ s', step e.1 e.2 s' := by
  induction h with
  | nil => intro e he; cases he
  | snoc _ hs ih =>
    intro e he
    rcases List.mem_cons.mp he with rfl | he
    · exact ⟨_, hs⟩
    · exact ih e he

/-- A run in two parts. -/
theorem split_append {later earlier : List (σ × ι)} (h : Trace step s₀ (later ++ earlier) s) :
    ∃ s₁, Trace step s₀ earlier s₁ ∧ Trace step s₁ later s := by
  induction later generalizing s with
  | nil => exact ⟨s, h, .nil⟩
  | cons e later ih =>
    cases h with
    | snoc h hs =>
      obtain ⟨s₁, h1, h2⟩ := ih h
      exact ⟨s₁, h1, h2.snoc hs⟩

theorem append {later : List (σ × ι)} {s' : σ} (h : Trace step s₀ hist s)
    (h' : Trace step s later s') : Trace step s₀ (later ++ hist) s' := by
  induction h' with
  | nil => exact h
  | snoc _ hs ih => exact ih.snoc hs

/-- Where every step moves along `R`, the states of the history are all before the present one. -/
theorem before {R : σ → σ → Prop} [IsPreorder σ R] (hR : ∀ a i b, step a i b → R a b)
    (h : Trace step s₀ hist s) : ∀ e ∈ hist, R e.1 s := by
  induction h with
  | nil => intro e he; cases he
  | snoc _ hs ih =>
    intro e he
    rcases List.mem_cons.mp he with rfl | he
    · exact hR _ _ _ hs
    · exact trans_of R (ih e he) (hR _ _ _ hs)

/-- Where every step moves along `R`, the states of the history are all after the first one. -/
theorem after {R : σ → σ → Prop} [IsPreorder σ R] (hR : ∀ a i b, step a i b → R a b)
    (h : Trace step s₀ hist s) : R s₀ s ∧ ∀ e ∈ hist, R s₀ e.1 := by
  induction h with
  | nil => exact ⟨refl_of R s₀, fun e he => by cases he⟩
  | snoc _ hs ih =>
    refine ⟨trans_of R ih.1 (hR _ _ _ hs), fun e he => ?_⟩
    rcases List.mem_cons.mp he with rfl | he
    · exact ih.1
    · exact ih.2 e he

theorem of_along {next : σ → ι → σ} {ok : σ → ι → Prop} {l : List ι}
    (h : Reaches.Along next ok s l) :
    Trace (fun a i b => ok a i ∧ b = next a i) s (Reaches.visited next s l).reverse
      (l.foldl next s) := by
  induction l generalizing s with
  | nil => exact .nil
  | cons i l ih =>
    rw [Reaches.visited, List.reverse_cons]
    exact append (.snoc .nil ⟨h.1, rfl⟩) (ih h.2)

end Trace

/-! ## Journals -/

/-- The storage, the time, and the accepted operations. -/
structure Journal (σ ι : Type) where
  store : σ
  now : Nat
  log : List ι

namespace Journal

variable {σ ι ε α : Type}

def advance (s : Journal σ ι) (now : Nat) : Journal σ ι := { s with now }

/-- An accepted operation is entered, a rejected one leaves no trace. -/
def commit (s : Journal σ ι) (x : Tx σ ε α) (entry : α → ι) : Journal σ ι :=
  match x s.store with
  | (.ok a, st) => { s with store := st, log := entry a :: s.log }
  | (.error _, _) => s

theorem commit_cases (s : Journal σ ι) (x : Tx σ ε α) (entry : α → ι) :
    s.commit x entry = s ∨ ∃ a st, x s.store = (.ok a, st) ∧
      s.commit x entry = { s with store := st, log := entry a :: s.log } := by
  unfold commit
  split
  · rename_i a st he; exact .inr ⟨a, st, he, rfl⟩
  · exact .inl rfl

/-- What holds now and of the state with every possible entry holds after the operation. -/
theorem commit_rule {P : Journal σ ι → Prop} {s : Journal σ ι} {x : Tx σ ε α} {entry : α → ι} (h : P s)
    (hx : ∀ a st, x s.store = (.ok a, st) → P { s with store := st, log := entry a :: s.log }) :
    P (s.commit x entry) := by
  obtain he | ⟨a, st, hr, he⟩ := s.commit_cases x entry
  · rw [he]; exact h
  · rw [he]; exact hx a st hr

end Journal

end CallStake
