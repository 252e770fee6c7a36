import Mathlib.Data.List.Basic
import Mathlib.Algebra.Order.Ring.Nat

/-!
# Whole periods between readings

A clock that is read from time to time and counts the whole periods since it last started. It starts again at
a reading that counts one, so it drops the fraction of a period that is left there.

* `stop`: when the clock last started. `counted`: the periods of all readings. `dropped`: the fractions.
* `stop_eq`: nothing else is lost.
* `counted_eq_iff`: the readings count all whole periods exactly when the dropped fractions and the time since
  the last start make no period together.
-/

namespace CallStake.Periods

/-- When the clock last started, after a reading at `t`. -/
def tick (p start t : Nat) : Nat := if t - start < p then start else t

/-- When the clock last started. -/
def stop (p start : Nat) (ts : List Nat) : Nat := ts.foldl (tick p) start

/-- The periods that the readings count. -/
def counted (p : Nat) : Nat → List Nat → Nat
  | _, [] => 0
  | start, t :: ts => (t - start) / p + counted p (tick p start t) ts

/-- The fractions that the readings drop. -/
def dropped (p : Nat) : Nat → List Nat → Nat
  | _, [] => 0
  | start, t :: ts => (if t - start < p then 0 else (t - start) % p) + dropped p (tick p start t) ts

/-- The readings do not go back, nor behind the start. -/
def Ordered (start : Nat) (ts : List Nat) : Prop := (start :: ts).IsChain (· ≤ ·)
  deriving Decidable

section Readings

variable {p start t : Nat} {ts : List Nat}

theorem tick_le (h : start ≤ t) : tick p start t ≤ t := by
  unfold tick
  split
  · exact h
  · exact Nat.le_refl _

/-- A reading moves the start by the periods it counts and the fraction it drops. -/
theorem tick_eq (h : start ≤ t) :
    tick p start t = start + p * ((t - start) / p) + if t - start < p then 0 else (t - start) % p := by
  unfold tick
  split
  · rename_i hlt
    rw [Nat.div_eq_of_lt hlt]
    omega
  · have hdiv := Nat.div_add_mod (t - start) p
    omega

theorem Ordered.le (h : Ordered start (t :: ts)) : start ≤ t := (List.isChain_cons_cons.mp h).1

theorem Ordered.tail (h : Ordered start (t :: ts)) : Ordered (tick p start t) ts := by
  have hts : (t :: ts).IsChain (· ≤ ·) := (List.isChain_cons_cons.mp h).2
  cases ts with
  | nil => exact .singleton _
  | cons t' ts =>
    obtain ⟨hle, hrest⟩ := List.isChain_cons_cons.mp hts
    exact .cons_cons ((tick_le h.le).trans hle) hrest

/-- The periods that are counted and the fractions that are dropped make up the time until the last start. -/
theorem stop_eq (h : Ordered start ts) :
    stop p start ts = start + p * counted p start ts + dropped p start ts := by
  induction ts generalizing start with
  | nil => simp [stop, counted, dropped]
  | cons t ts ih =>
    have hstop : stop p start (t :: ts) = stop p (tick p start t) ts := rfl
    have htick := tick_eq (p := p) h.le
    rw [hstop, ih h.tail, counted, dropped, Nat.mul_add]
    omega

/-- The clock started less than a period before the last reading. -/
theorem last_sub_stop_lt (hp : 0 < p) (h : Ordered start ts) :
    stop p start ts ≤ ts.getLastD start ∧ ts.getLastD start - stop p start ts < p := by
  induction ts generalizing start with
  | nil => exact ⟨Nat.le_refl _, by simpa [stop] using hp⟩
  | cons t ts ih =>
    have hstop : stop p start (t :: ts) = stop p (tick p start t) ts := rfl
    rw [hstop]
    cases ts with
    | nil =>
      have hle := tick_le (p := p) h.le
      refine ⟨hle, ?_⟩
      change t - tick p start t < p
      unfold tick
      split
      · assumption
      · omega
    | cons t' ts => exact ih h.tail

/-- The last reading, apart from the whole periods that were counted. -/
theorem last_sub_start (h : Ordered start ts) (hp : 0 < p) : ts.getLastD start - start =
    p * counted p start ts + (dropped p start ts + (ts.getLastD start - stop p start ts)) := by
  have hstop := stop_eq (p := p) h
  have hlast := (last_sub_stop_lt hp h).1
  omega

/-- All whole periods are counted exactly when what is not counted makes none. -/
theorem counted_eq_iff (hp : 0 < p) (h : Ordered start ts) :
    counted p start ts = (ts.getLastD start - start) / p ↔
      dropped p start ts + (ts.getLastD start - stop p start ts) < p := by
  have hdiv := last_sub_start h hp
  rw [hdiv, Nat.mul_add_div hp, eq_comm, Nat.add_eq_left, Nat.div_eq_zero_iff_lt hp]

end Readings

end CallStake.Periods
