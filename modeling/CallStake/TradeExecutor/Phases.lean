import CallStake.TradeExecutor.Types

/-!
# The life of a queued trade

What the journal says about a queued trade, apart from how the executor stores it.

* `Phase.Allows`, `Lawful`: what may happen to a trade in a phase, with a grace period and a number of attempts.
* `phases_eq_iff`: in a lawful journal the phases that end a life are entered once (`entries_of_final`).
* `Lawful.failures`: the attempts that failed since the last queueing.
-/

namespace CallStake.TradeExecutor

open List

/-! ## Phases -/

/-- A queued trade waits since a ledger, and was tried in vain a number of times. -/
inductive Phase where
  | unissued
  | queued (since failures : Nat)
  | executed
  | cancelled
  | deadLettered
  | discarded
  | pruned
  deriving DecidableEq

def Phase.move : Phase → Entry → Phase
  | _, .queued _ ledger | _, .requeued _ ledger => .queued ledger 0
  | .queued since n, .failed .. => .queued since (n + 1)
  | _, .executed .. => .executed
  | _, .cancelled .. => .cancelled
  | _, .deadLettered _ => .deadLettered
  | _, .discarded _ => .discarded
  | _, .pruned _ => .pruned
  | p, _ => p

/-- The phase that each id is in after the entries of a journal. -/
def phases : List Entry → Nat → Phase
  | [], _ => .unissued
  | e :: j, id => if e.subject = some id then (phases j id).move e else phases j id

/-- The trade is in the queue. -/
def Phase.waits : Phase → Option (Nat × Nat)
  | .queued since n => some (since, n)
  | _ => none

/-- Nothing happens to the trade any more. -/
def Phase.Final : Phase → Prop
  | .executed | .cancelled | .discarded | .pruned => True
  | _ => False

/-- What may happen to a trade. It is tried when the grace period is over, and cancelled before. -/
def Phase.Allows (grace retries : Nat) : Phase → Entry → Prop
  | .unissued, .queued .. => True
  | .queued since n, .executed _ ledger | .queued since n, .failed _ ledger =>
    n < retries ∧ since + grace ≤ ledger
  | .queued since _, .cancelled _ ledger => ledger < since + grace
  | .queued _ n, .deadLettered _ => n = retries
  | .deadLettered, .requeued .. | .deadLettered, .discarded _ | .deadLettered, .pruned _ => True
  | _, _ => False

/-- Everything that happened was allowed when it happened. -/
def Lawful (grace retries : Nat) : List Entry → Prop
  | [] => True
  | e :: j => (∀ id, e.subject = some id → (phases j id).Allows grace retries e) ∧ Lawful grace retries j

section Phases

variable {e : Entry} {j : List Entry} {id : Nat}

theorem phases_cons_self (h : e.subject = some id) : phases (e :: j) id = (phases j id).move e := if_pos h

theorem phases_cons_ne (h : e.subject ≠ some id) : phases (e :: j) id = phases j id := if_neg h

/-- An entry moves the phase of its subject. -/
theorem phases_cons (h : e.subject = some id) :
    phases (e :: j) = Function.update (phases j) id ((phases j id).move e) := by
  funext i
  by_cases hi : i = id
  · subst hi
    rw [Function.update_self, phases_cons_self h]
  · rw [Function.update_of_ne hi, phases_cons_ne fun h' => hi (Option.some.inj (h'.symm.trans h))]

/-- What happens to positions is of no concern. -/
theorem phases_append {l : List Entry} (hl : ∀ e ∈ l, e.subject = none) : phases (l ++ j) = phases j := by
  induction l with
  | nil => rfl
  | cons e l ih =>
    funext id
    rw [cons_append, phases_cons_ne (by rw [hl e (mem_cons_self ..)]; nofun),
      ih fun e' he' => hl e' (mem_cons_of_mem _ he')]

end Phases

/-! ## Lawful journals -/

/-- The phase in which the entry ends a life. -/
def Entry.verdict : Entry → Option Phase
  | .executed .. => some .executed
  | .cancelled .. => some .cancelled
  | .discarded _ => some .discarded
  | .pruned _ => some .pruned
  | _ => none

section Lawful

variable {grace retries : Nat} {e : Entry} {j l : List Entry} {id : Nat} {p : Phase}

theorem Lawful.suffix (h : Lawful grace retries (l ++ j)) : Lawful grace retries j := by
  induction l with
  | nil => exact h
  | cons e l ih => exact ih h.2

theorem Lawful.append (h : Lawful grace retries j) (hl : ∀ e ∈ l, e.subject = none) :
    Lawful grace retries (l ++ j) := by
  induction l with
  | nil => exact h
  | cons e l ih =>
    refine ⟨fun id hs => ?_, ih fun e' he' => hl e' (mem_cons_of_mem _ he')⟩
    rw [hl e (mem_cons_self ..)] at hs
    cases hs

theorem Phase.Final.not_allows (hp : p.Final) : ¬ p.Allows grace retries e := by
  cases p <;> first | exact hp.elim | (intro h; cases e <;> exact h)

theorem Phase.Final.waits (hp : p.Final) : p.waits = none := by
  cases p <;> first | exact hp.elim | rfl

theorem move_eq_iff (hp : p.Final) {q : Phase} (hq : q.Allows grace retries e) :
    q.move e = p ↔ e.verdict = some p := by
  cases q <;> cases e <;> first
    | exact hq.elim
    | (cases p <;> first | exact hp.elim | simp [Phase.move, Entry.verdict])

/-- The entries with which the life of the trade ended in the phase. -/
def endings (p : Phase) (id : Nat) (j : List Entry) : Nat :=
  j.countP fun e => e.subject = some id ∧ e.verdict = some p

theorem endings_cons (p : Phase) (id : Nat) (e : Entry) (j : List Entry) :
    endings p id (e :: j) = endings p id j + if e.subject = some id ∧ e.verdict = some p then 1 else 0 := by
  simp [endings, countP_cons]

/-- A life ends once. -/
theorem Lawful.endings_eq (h : Lawful grace retries j) (hp : p.Final) :
    endings p id j = if phases j id = p then 1 else 0 := by
  induction j with
  | nil =>
    cases p <;> first | exact hp.elim | rfl
  | cons e j ih =>
    have hj := ih h.2
    rw [endings_cons, hj]
    by_cases hs : e.subject = some id
    · have hallows := h.1 id hs
      have hnot : phases j id ≠ p := by
        rintro rfl
        exact hp.not_allows hallows
      rw [phases_cons_self hs, if_neg hnot, Nat.zero_add]
      simp [hs, move_eq_iff hp hallows]
    · rw [phases_cons_ne hs]
      simp [hs]

theorem Lawful.phases_eq_iff (h : Lawful grace retries j) (hp : p.Final) :
    phases j id = p ↔ ∃ e ∈ j, e.subject = some id ∧ e.verdict = some p := by
  have hcount : endings p id j = _ := h.endings_eq hp
  have hpos : 0 < endings p id j ↔ ∃ e ∈ j, e.subject = some id ∧ e.verdict = some p := by
    simp [endings, countP_pos_iff]
  rw [← hpos, hcount]
  split <;> simp_all

theorem Lawful.endings_le (h : Lawful grace retries j) (hp : p.Final) : endings p id j ≤ 1 := by
  rw [h.endings_eq hp]
  split <;> omega

theorem Phase.Allows.move_ne_unissued (h : p.Allows grace retries e) : p.move e ≠ .unissued := by
  cases p <;> cases e <;> first | exact h.elim | nofun

/-- A life starts in the queue. -/
theorem Phase.Allows.of_unissued (h : Phase.unissued.Allows grace retries e) (hs : e.subject = some id) :
    ∃ ledger, e = .queued id ledger := by
  cases e <;> first
    | exact h.elim
    | exact ⟨_, by rw [Option.some.inj hs]⟩

theorem Lawful.issued_iff (h : Lawful grace retries j) :
    phases j id ≠ .unissued ↔ ∃ ledger, .queued id ledger ∈ j := by
  induction j with
  | nil => simp [phases]
  | cons e j ih =>
    have hj := ih h.2
    by_cases hs : e.subject = some id
    · have hallows := h.1 id hs
      rw [phases_cons_self hs]
      refine iff_of_true hallows.move_ne_unissued ?_
      by_cases hp : phases j id = .unissued
      · rw [hp] at hallows
        obtain ⟨ledger, rfl⟩ := hallows.of_unissued hs
        exact ⟨ledger, mem_cons_self ..⟩
      · obtain ⟨ledger, hmem⟩ := hj.mp hp
        exact ⟨ledger, mem_cons_of_mem _ hmem⟩
    · rw [phases_cons_ne hs, hj]
      refine exists_congr fun ledger => ?_
      rw [mem_cons, or_iff_right]
      rintro rfl
      exact hs rfl

/-! ## Attempts -/

/-- The ledger of the last time that the trade was queued. -/
def lastQueueing (id : Nat) : List Entry → Option Nat
  | [] => none
  | .queued i ledger :: j | .requeued i ledger :: j => if i = id then some ledger else lastQueueing id j
  | _ :: j => lastQueueing id j

/-- The attempts that failed since then. -/
def failures (id : Nat) : List Entry → Nat
  | [] => 0
  | .queued i _ :: j | .requeued i _ :: j => if i = id then 0 else failures id j
  | .failed i _ :: j => if i = id then failures id j + 1 else failures id j
  | _ :: j => failures id j

theorem failures_cons_ne {e : Entry} (h : e.subject ≠ some id) :
    failures id (e :: j) = failures id j ∧ lastQueueing id (e :: j) = lastQueueing id j := by
  cases e <;> first
    | exact ⟨rfl, rfl⟩
    | exact ⟨if_neg fun hi => h (congrArg some hi), if_neg fun hi => h (congrArg some hi)⟩
    | exact ⟨if_neg fun hi => h (congrArg some hi), rfl⟩

/-- The phase of a queued trade tells both, and no more attempts fail than are made. -/
theorem Lawful.failures_le (h : Lawful grace retries j) :
    failures id j ≤ retries ∧
      ∀ since n, phases j id = .queued since n → lastQueueing id j = some since ∧ failures id j = n := by
  induction j with
  | nil => exact ⟨Nat.zero_le _, fun _ _ h => by cases h⟩
  | cons e j ih =>
    obtain ⟨hle, hwaits⟩ := ih h.2
    by_cases hs : e.subject = some id
    · have hallows := h.1 id hs
      rw [phases_cons_self hs]
      cases e with
      | opened | closed => cases hs
      | queued i ledger | requeued i ledger =>
        obtain rfl : i = id := Option.some.inj hs
        simp [failures, lastQueueing, Phase.move]
      | failed i =>
        obtain rfl : i = id := Option.some.inj hs
        cases hp : phases j i <;> rw [hp] at hallows
        case queued since n =>
          obtain ⟨hlast, hn⟩ := hwaits since n hp
          have hlt := hallows.1
          simp only [failures, lastQueueing, Phase.move, if_true]
          refine ⟨by omega, fun since' n' hq => ?_⟩
          obtain ⟨rfl, rfl⟩ := Phase.queued.inj hq
          exact ⟨hlast, by rw [hn]⟩
        all_goals exact hallows.elim
      | executed | cancelled | deadLettered | discarded | pruned =>
        exact ⟨hle, fun _ _ hq => by cases hp : phases j id <;> rw [hp] at hq <;> cases hq⟩
    · obtain ⟨hf, hl⟩ := failures_cons_ne (j := j) hs
      rw [phases_cons_ne hs, hf, hl]
      exact ⟨hle, hwaits⟩

end Lawful

end CallStake.TradeExecutor
