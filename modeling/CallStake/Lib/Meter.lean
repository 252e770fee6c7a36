import CallStake.Lib.Machine
import Mathlib.Data.List.Count

/-!
# Meters

A volume that is counted in windows: each amount is added to the window that is current at its time, and a
new window starts from nothing. The count saturates at the top of the machine integers, and an amount is only
taken when the count stays within a limit.

* `Entry`: an amount, its time, and the start of the window it was counted in. `sumOf p`: the amounts of the
  entries in `p`.
* `Metered limit entries start total`: `total` counts the entries of the window that starts at `start`, and
  no window is over the limit. `Metered.restart`, `Metered.charge`: the two operations keep it.
* `Spaced width entries start`: entries lie in their windows, and windows are `width` apart.
* `sumOf_interval_le`: then an interval of that width is met by at most two windows, so it has at most twice
  the limit.

Actions that are counted in windows of `W` units of time, up to `M` in each. A window begins with its first action;
the next one begins with the first action after its end.

* `countIn log lo hi`: how many actions of a log are from `lo` on and before `hi`.
* `FixedWindow W M log start count`: what holds of the log while a window is open; kept by another action in the
  window (`act`) and by the first one of a new window (`first`, `roll`).
* `FixedWindow.spread`: an interval meets at most two windows, so it has at most `2 * M` actions.
* `Filled`: what holds of a window ever after.
-/

namespace CallStake

open List

namespace Meter

/-- An amount, when it was counted, and in which window. -/
structure Entry where
  time : Nat
  start : Nat
  amount : Int
  deriving DecidableEq

/-- The amounts of the entries in `p`. -/
def sumOf (p : Entry → Prop) [DecidablePred p] (l : List Entry) : Int :=
  (l.map fun e => if p e then e.amount else 0).sum

section Sums

variable {p q r : Entry → Prop} [DecidablePred p] [DecidablePred q] [DecidablePred r] {l : List Entry}

@[simp] theorem sumOf_nil : sumOf p [] = 0 := rfl

theorem sumOf_cons (e : Entry) : sumOf p (e :: l) = (if p e then e.amount else 0) + sumOf p l := rfl

theorem sumOf_eq_zero (h : ∀ e ∈ l, ¬ p e) : sumOf p l = 0 := by
  induction l with
  | nil => rfl
  | cons e l ih =>
    rw [sumOf_cons, if_neg (h e (mem_cons_self ..)), ih fun e' he' => h e' (mem_cons_of_mem _ he')]
    rfl

theorem sumOf_nonneg (h : ∀ e ∈ l, 0 ≤ e.amount) : 0 ≤ sumOf p l := by
  induction l with
  | nil => exact Int.le_refl 0
  | cons e l ih =>
    have he := h e (mem_cons_self ..)
    have hl := ih fun e' he' => h e' (mem_cons_of_mem _ he')
    rw [sumOf_cons]
    split <;> omega

/-- A set of entries that two others cover. -/
theorem sumOf_le_add (hnonneg : ∀ e ∈ l, 0 ≤ e.amount) (h : ∀ e ∈ l, p e → q e ∨ r e) :
    sumOf p l ≤ sumOf q l + sumOf r l := by
  induction l with
  | nil => exact Int.le_refl 0
  | cons e l ih =>
    have he := hnonneg e (mem_cons_self ..)
    have hcover := h e (mem_cons_self ..)
    have hl := ih (fun e' he' => hnonneg e' (mem_cons_of_mem _ he')) fun e' he' =>
      h e' (mem_cons_of_mem _ he')
    simp only [sumOf_cons]
    split <;> split <;> split <;> (try omega)
    rename_i hp hq hr
    exact absurd (hcover hp) (by simp [hq, hr])

theorem sumOf_mono (hnonneg : ∀ e ∈ l, 0 ≤ e.amount) (h : ∀ e ∈ l, p e → q e) : sumOf p l ≤ sumOf q l := by
  have hcover := sumOf_le_add (r := fun _ => False) hnonneg fun e he hp => .inl (h e he hp)
  rw [sumOf_eq_zero (p := fun _ => False) fun _ _ => id] at hcover
  omega

/-- Entries of one window add up to at most its sum. -/
theorem sumOf_le_of_same {limit : Int} (hnonneg : ∀ e ∈ l, 0 ≤ e.amount)
    (hlimit : ∀ start, sumOf (·.start = start) l ≤ limit)
    (hsame : ∀ e ∈ l, ∀ e' ∈ l, p e → p e' → e.start = e'.start) : sumOf p l ≤ limit := by
  by_cases hex : ∃ e ∈ l, p e
  · obtain ⟨e, he, hp⟩ := hex
    have hle : sumOf p l ≤ sumOf (·.start = e.start) l :=
      sumOf_mono hnonneg fun e' he' hp' => hsame e' he' e he hp' hp
    exact Int.le_trans hle (hlimit e.start)
  · rw [sumOf_eq_zero fun e he hp => hex ⟨e, he, hp⟩]
    exact Int.le_trans (sumOf_nonneg (p := (·.start = 0)) hnonneg) (hlimit 0)

end Sums

/-! ## Counting -/

/-- `total` counts the entries of the window of `start`, the newest one, and no window is over the limit. -/
structure Metered (limit : Int) (entries : List Entry) (start : Nat) (total : Int) : Prop where
  nonneg : ∀ e ∈ entries, 0 ≤ e.amount
  total_nonneg : 0 ≤ total
  before : ∀ e ∈ entries, e.start ≤ start
  current : min i128Max (sumOf (·.start = start) entries) ≤ total
  bounded : ∀ s, min i128Max (sumOf (·.start = s) entries) ≤ limit

section Metered

variable {limit : Int} {entries : List Entry} {start : Nat} {total : Int}

theorem Metered.empty (hlimit : 0 ≤ limit) (htotal : 0 ≤ total) : Metered limit [] start total where
  nonneg _ he := by cases he
  total_nonneg := htotal
  before _ he := by cases he
  current := by rw [sumOf_nil]; omega
  bounded _ := by rw [sumOf_nil]; omega

/-- A new window starts from nothing. -/
theorem Metered.restart (h : Metered limit entries start total) {start' : Nat} (hlt : start < start') :
    Metered limit entries start' 0 where
  nonneg := h.nonneg
  total_nonneg := Int.le_refl 0
  before e he := Nat.le_of_lt (Nat.lt_of_le_of_lt (h.before e he) hlt)
  current := by
    have hnone : sumOf (·.start = start') entries = 0 := by
      refine sumOf_eq_zero fun e he heq => ?_
      have := h.before e he
      omega
    rw [hnone]
    omega
  bounded := h.bounded

/-- An amount is added to the current window. -/
theorem Metered.charge (h : Metered limit entries start total) {time : Nat} {amount : Int}
    (hamount : 0 ≤ amount) (hle : min i128Max (total + amount) ≤ limit) :
    Metered limit (⟨time, start, amount⟩ :: entries) start (min i128Max (total + amount)) where
  nonneg e he := by
    rcases List.mem_cons.mp he with rfl | he
    · exact hamount
    · exact h.nonneg e he
  total_nonneg := by
    have := h.total_nonneg
    unfold i128Max
    omega
  before e he := by
    rcases List.mem_cons.mp he with rfl | he
    · exact Nat.le_refl _
    · exact h.before e he
  current := by
    have := h.current
    rw [sumOf_cons, if_pos rfl]
    dsimp only
    omega
  bounded s := by
    have hcurrent := h.current
    have hs := h.bounded s
    rw [sumOf_cons]
    by_cases heq : start = s
    · subst heq
      rw [if_pos rfl]
      dsimp only
      omega
    · rw [if_neg heq]
      omega

/-- Below the top of the machine integers the bound is on the exact sums. -/
theorem Metered.sumOf_le (h : Metered limit entries start total) (hlimit : limit < i128Max) (s : Nat) :
    sumOf (·.start = s) entries ≤ limit := by
  have := h.bounded s
  omega

end Metered

/-! ## Intervals -/

/-- Entries lie in their windows, and windows are `width` apart, up to the current one. -/
structure Spaced (width : Nat) (entries : List Entry) (start : Nat) : Prop where
  within : ∀ e ∈ entries, e.start ≤ e.time ∧ e.time < e.start + width
  apart : ∀ e ∈ entries, ∀ e' ∈ entries, e.start = e'.start ∨ e.start + width ≤ e'.start ∨ e'.start + width ≤ e.start
  past : ∀ e ∈ entries, e.start = start ∨ e.start + width ≤ start

section Spaced

variable {width : Nat} {entries : List Entry} {start : Nat}

theorem Spaced.empty : Spaced width [] start := ⟨nofun, nofun, nofun⟩

theorem Spaced.restart (h : Spaced width entries start) {start' : Nat} (hle : start + width ≤ start') :
    Spaced width entries start' where
  within := h.within
  apart := h.apart
  past e he := by
    rcases h.past e he with heq | hlt
    · exact .inr (by omega)
    · exact .inr (by omega)

theorem Spaced.charge (h : Spaced width entries start) {time : Nat} {amount : Int} (hle : start ≤ time)
    (hlt : time < start + width) : Spaced width (⟨time, start, amount⟩ :: entries) start where
  within e he := by
    rcases List.mem_cons.mp he with rfl | he
    · exact ⟨hle, hlt⟩
    · exact h.within e he
  apart e he e' he' := by
    rcases List.mem_cons.mp he with rfl | he <;> rcases List.mem_cons.mp he' with rfl | he'
    · exact .inl rfl
    · rcases h.past e' he' with heq | hle
      · exact .inl heq.symm
      · exact .inr (.inr hle)
    · rcases h.past e he with heq | hle
      · exact .inl heq
      · exact .inr (.inl hle)
    · exact h.apart e he e' he'
  past e he := by
    rcases List.mem_cons.mp he with rfl | he
    · exact .inl rfl
    · exact h.past e he

/-- An interval of the width of the windows is met by at most two of them: one that starts before it ends
and before it, and one that starts in it. -/
theorem sumOf_interval_le {limit : Int} (h : Spaced width entries start)
    (hnonneg : ∀ e ∈ entries, 0 ≤ e.amount) (hlimit : ∀ s, sumOf (·.start = s) entries ≤ limit) (a : Nat) :
    sumOf (fun e => a ≤ e.time ∧ e.time < a + width) entries ≤ 2 * limit := by
  have hcover := sumOf_le_add (p := fun e => a ≤ e.time ∧ e.time < a + width)
    (q := fun e => (a ≤ e.time ∧ e.time < a + width) ∧ e.start ≤ a)
    (r := fun e => (a ≤ e.time ∧ e.time < a + width) ∧ a < e.start) hnonneg fun e _ hin => by
      rcases Nat.lt_or_ge a e.start with hlt | hle
      · exact .inr ⟨hin, hlt⟩
      · exact .inl ⟨hin, hle⟩
  have hearly := sumOf_le_of_same (p := fun e => (a ≤ e.time ∧ e.time < a + width) ∧ e.start ≤ a) hnonneg
    hlimit fun e he e' he' hp hp' => by
      have h1 := h.within e he
      have h2 := h.within e' he'
      have := h.apart e he e' he'
      omega
  have hlate := sumOf_le_of_same (p := fun e => (a ≤ e.time ∧ e.time < a + width) ∧ a < e.start) hnonneg
    hlimit fun e he e' he' hp hp' => by
      have h1 := h.within e he
      have h2 := h.within e' he'
      have := h.apart e he e' he'
      omega
  omega

end Spaced

end Meter

/-! ## Actions -/

/-- How many actions are from `lo` on and before `hi`. -/
def countIn (log : List Nat) (lo hi : Nat) : Nat := log.countP fun t => lo ≤ t ∧ t < hi

section CountIn

variable {log : List Nat} {lo hi lo' hi' mid t : Nat}

@[simp] theorem countIn_nil : countIn [] lo hi = 0 := rfl

theorem countIn_cons (t : Nat) (log : List Nat) :
    countIn (t :: log) lo hi = countIn log lo hi + if lo ≤ t ∧ t < hi then 1 else 0 := by
  simp [countIn, countP_cons]

theorem countIn_cons_of_in (h1 : lo ≤ t) (h2 : t < hi) : countIn (t :: log) lo hi = countIn log lo hi + 1 := by
  rw [countIn_cons, if_pos ⟨h1, h2⟩]

theorem countIn_cons_of_out (h : t < lo ∨ hi ≤ t) : countIn (t :: log) lo hi = countIn log lo hi := by
  rw [countIn_cons, if_neg (by omega), Nat.add_zero]

/-- Two intervals that cover a third one up to the last action. -/
theorem countIn_le_add (h : ∀ t ∈ log, lo ≤ t → t < hi → t < mid ∨ mid ≤ t ∧ t < hi') :
    countIn log lo hi ≤ countIn log lo mid + countIn log mid hi' := by
  induction log with
  | nil => simp
  | cons t log ih =>
    have hrest := ih fun x hx => h x (mem_cons_of_mem t hx)
    have ht := h t mem_cons_self
    rw [countIn_cons, countIn_cons, countIn_cons]
    split <;> split <;> split <;> omega

theorem countIn_le_of_imp (h : ∀ t ∈ log, lo ≤ t → t < hi → lo' ≤ t ∧ t < hi') :
    countIn log lo hi ≤ countIn log lo' hi' := by
  induction log with
  | nil => simp
  | cons t log ih =>
    have hrest := ih fun x hx => h x (mem_cons_of_mem t hx)
    have ht := h t mem_cons_self
    rw [countIn_cons, countIn_cons]
    split <;> split <;> omega

theorem countIn_eq_zero (h : ∀ t ∈ log, t < lo ∨ hi ≤ t) : countIn log lo hi = 0 := by
  unfold countIn
  rw [countP_eq_zero]
  intro t ht
  have := h t ht
  simp
  omega

end CountIn

/-- The window from `start` on has counted `count` actions. -/
structure FixedWindow (W M : Nat) (log : List Nat) (start count : Nat) : Prop where
  counted : countIn log start (start + W) = count
  capped : count ≤ M
  last (t : Nat) (ht : t ∈ log) : t < start + W
  /-- The actions shortly before the window are of one window. -/
  before (t : Nat) (ht : start ≤ t + W) : countIn log t start ≤ M
  earlier (t : Nat) (ht : t + W < start) : countIn log t (t + W + 1) ≤ 2 * M

namespace FixedWindow

variable {W M start count now : Nat} {log : List Nat}

theorem first (hM : 1 ≤ M) (hW : 0 < W) (now : Nat) : FixedWindow W M [now] now 1 where
  counted := countIn_cons_of_in (Nat.le_refl now) (by omega)
  capped := hM
  last t ht := by
    rw [List.mem_singleton.mp ht]
    omega
  before t _ := by
    rw [countIn_cons_of_out (by omega), countIn_nil]
    omega
  earlier t ht := by
    rw [countIn_cons_of_out (by omega), countIn_nil]
    omega

theorem act (h : FixedWindow W M log start count) (hlo : start ≤ now) (hhi : now < start + W)
    (hcount : count < M) : FixedWindow W M (now :: log) start (count + 1) where
  counted := by rw [countIn_cons_of_in hlo hhi, h.counted]
  capped := hcount
  last t ht := by
    rcases List.mem_cons.mp ht with rfl | ht
    · exact hhi
    · exact h.last t ht
  before t ht := by
    rw [countIn_cons_of_out (by omega)]
    exact h.before t ht
  earlier t ht := by
    rw [countIn_cons_of_out (by omega)]
    exact h.earlier t ht

/-- An interval that reaches into the window has at most `M` actions before it, and at most `M` in it. -/
theorem spread (h : FixedWindow W M log start count) (t : Nat) : countIn log t (t + W + 1) ≤ 2 * M := by
  by_cases ht : start ≤ t + W
  · have hsplit : countIn log t (t + W + 1) ≤ countIn log t start + countIn log start (start + W) := by
      refine countIn_le_add fun x hx _ _ => ?_
      have := h.last x hx
      omega
    have hbefore := h.before t ht
    have hin := h.counted
    have hcap := h.capped
    omega
  · exact h.earlier t (by omega)

theorem roll (h : FixedWindow W M log start count) (hW : 0 < W) (hM : 1 ≤ M) (hnow : start + W ≤ now) :
    FixedWindow W M (now :: log) now 1 where
  counted := by
    rw [countIn_cons_of_in (Nat.le_refl now) (by omega), countIn_eq_zero fun x hx => ?_]
    have := h.last x hx
    omega
  capped := hM
  last t ht := by
    rcases List.mem_cons.mp ht with rfl | ht
    · omega
    · have := h.last t ht
      omega
  before t ht := by
    -- from one length before the new window on, all actions are of the last window
    have hlast : countIn log t now ≤ countIn log start (start + W) := by
      refine countIn_le_of_imp fun x hx hlo _ => ?_
      have := h.last x hx
      omega
    have hin := h.counted
    have hcap := h.capped
    rw [countIn_cons_of_out (by omega)]
    omega
  earlier t ht := by
    rw [countIn_cons_of_out (by omega)]
    exact h.spread t

end FixedWindow

/-- The window from `a` on is the open one, or is over; it has at most `M` actions. -/
structure Filled (W M : Nat) (a : Nat) (log : List Nat) (start : Nat) : Prop where
  placed : a = start ∨ a + W ≤ start
  capped : countIn log a (a + W) ≤ M

section Filled

variable {W M a start count now : Nat} {log : List Nat}

theorem FixedWindow.filled (h : FixedWindow W M log start count) : Filled W M start log start where
  placed := .inl rfl
  capped := by rw [h.counted]; exact h.capped

theorem Filled.act (h : Filled W M a log start) (hw : FixedWindow W M (now :: log) start count)
    (hlo : start ≤ now) : Filled W M a (now :: log) start where
  placed := h.placed
  capped := by
    rcases h.placed with rfl | hover
    · rw [hw.counted]
      exact hw.capped
    · rw [countIn_cons_of_out (by omega)]
      exact h.capped

theorem Filled.roll (h : Filled W M a log start) (hnow : start + W ≤ now) : Filled W M a (now :: log) now where
  placed := by
    have := h.placed
    omega
  capped := by
    have := h.placed
    rw [countIn_cons_of_out (by omega)]
    exact h.capped

end Filled

end CallStake
