import CallStake.Governance.Conviction
import CallStake.Lib.Periods

/-!
# Refills of a conviction pool

A refill pays the rate of the pool for each whole period since the last one, and starts to count again from
now.

* `refills_eq`: the calls read a clock of periods (`Periods`), and pay what it counts.
* `refills_exact_iff`: the calls pay for all whole periods since the pool was created exactly when the
  fractions that they drop, and the time since the last refill, make no period.
-/

namespace CallStake.Governance

namespace Conviction

open Periods

/-- The pool is asked for a refill at `t`. -/
def refillAt (poolId : Nat) (w : World) (t : Nat) : Except (Fault GovernanceError) Int × World :=
  refillConvictionPool poolId { w with now := t }

/-- What the calls at `ts` return together, and the world after them. -/
def refills (poolId : Nat) : World → List Nat → Int × World
  | w, [] => (0, w)
  | w, t :: ts =>
    let r := refillAt poolId w t
    let rest := refills poolId r.2 ts
    ((match r.1 with | .ok amount => amount | .error _ => 0) + rest.1, rest.2)

/-- What a pool is owed at `t`. -/
def ConvictionVotingPool.due (pool : ConvictionVotingPool) (t : Nat) : Int :=
  pool.refillRate * ((t - pool.lastRefill) / pool.refillPeriod : Nat)

/-- Neither the amount of a refill at `t` nor the funds after it saturate. -/
def ConvictionVotingPool.Takes (pool : ConvictionVotingPool) (t : Nat) : Prop :=
  InRange (pool.due t) ∧ InRange (pool.fundingAmount + pool.due t)

instance (pool : ConvictionVotingPool) (t : Nat) : Decidable (pool.Takes t) := inferInstanceAs (Decidable (_ ∧ _))

/-- No call saturates. -/
def NothingSaturates (poolId : Nat) : World → List Nat → Prop
  | _, [] => True
  | w, t :: ts => (∀ pool ∈ w.state.pools.lookup poolId, pool.Takes t) ∧
      NothingSaturates poolId (refillAt poolId w t).2 ts

/-- The pool after `amount` was paid into it at its last refill at `t`. -/
def ConvictionVotingPool.refilled (pool : ConvictionVotingPool) (amount : Int) (t : Nat) :
    ConvictionVotingPool :=
  { pool with fundingAmount := pool.fundingAmount + amount, lastRefill := t }

section Refills

variable {w : World} {poolId t : Nat} {pool : ConvictionVotingPool} {ts : List Nat}

/-- A call reads the clock. -/
theorem refillAt_eq (hp : w.state.pools.lookup poolId = some pool) (htakes : pool.Takes t) :
    (refillAt poolId w t).1 = .ok (pool.due t) ∧ (refillAt poolId w t).2.state.pools.lookup poolId =
      some (pool.refilled (pool.due t) (tick pool.refillPeriod pool.lastRefill t)) := by
  obtain ⟨hdue, hfunds⟩ := htakes
  unfold tick
  by_cases hearly : t - pool.lastRefill < pool.refillPeriod
  · have hzero : pool.due t = 0 := by simp [ConvictionVotingPool.due, Nat.div_eq_of_lt hearly]
    have hrun : refillAt poolId w t = (.ok 0, { w with now := t }) := by
      simp [refillAt, refillConvictionPool, hp, hearly]
    rw [hrun, hzero, if_pos hearly]
    refine ⟨rfl, hp.trans ?_⟩
    simp [ConvictionVotingPool.refilled]
  · have hrun : refillAt poolId w t = (.ok (pool.due t), ({ w with now := t }.putPool poolId
        (pool.refilled (pool.due t) t)).note (.refilled poolId (pool.due t)
          (decide (i128Max < pool.fundingAmount + pool.due t)))) := by
      have hmul : saturatingMul pool.refillRate (((t - pool.lastRefill : Nat) : Int) / pool.refillPeriod) =
          pool.due t := clamp_eq hdue.1 hdue.2
      have hadd : saturatingAdd pool.fundingAmount (pool.due t) = pool.fundingAmount + pool.due t :=
        saturatingAdd_eq hfunds.1 hfunds.2
      simp [refillAt, refillConvictionPool, ConvictionVotingPool.refilled, hp, hearly, hmul, hadd]
    rw [hrun, if_neg hearly]
    exact ⟨rfl, AList.lookup_insert _⟩

/-- The calls pay what the clock counts. -/
theorem refills_eq (hp : w.state.pools.lookup poolId = some pool) (hs : NothingSaturates poolId w ts) :
    (refills poolId w ts).1 = pool.refillRate * counted pool.refillPeriod pool.lastRefill ts := by
  induction ts generalizing w pool with
  | nil => simp [refills, counted]
  | cons t ts ih =>
    obtain ⟨htakes, hs⟩ := hs
    obtain ⟨hret, hp'⟩ := refillAt_eq hp (htakes pool hp)
    have hrest := ih hp' hs
    calc (refills poolId w (t :: ts)).1
        = pool.due t + (refills poolId (refillAt poolId w t).2 ts).1 := by simp only [refills, hret]
      _ = pool.due t + pool.refillRate *
            counted pool.refillPeriod (tick pool.refillPeriod pool.lastRefill t) ts := by rw [hrest]; rfl
      _ = pool.refillRate * counted pool.refillPeriod pool.lastRefill (t :: ts) := by
        rw [counted, Nat.cast_add, Int.mul_add]
        rfl

/-- Calls that do not saturate pay for all whole periods since the last refill exactly when the fractions that
they drop, and the time since the last refill that one of them made, make no period. -/
theorem refills_exact_iff (hp : w.state.pools.lookup poolId = some pool) (hperiod : 0 < pool.refillPeriod)
    (ht : Ordered pool.lastRefill ts) (hs : NothingSaturates poolId w ts) :
    (refills poolId w ts).1 = pool.refillRate *
        ((ts.getLastD pool.lastRefill - pool.lastRefill) / pool.refillPeriod : Nat) ↔
      pool.refillRate = 0 ∨
        dropped pool.refillPeriod pool.lastRefill ts +
          (ts.getLastD pool.lastRefill - stop pool.refillPeriod pool.lastRefill ts) < pool.refillPeriod := by
  rw [refills_eq hp hs, mul_eq_mul_left_iff, Int.natCast_inj, counted_eq_iff hperiod ht, or_comm]

end Refills

namespace Sample

/-- A pool that is paid five hundred each day. -/
def dailyPool : World := run (World.deployed 0) [callBy proposer (.createConvictionPool 10000 500 DAY)]

theorem dailyPool_stored : dailyPool.state.pools.lookup 1 = some ⟨1, 10000, 500, DAY, ∅, [], 0, 0⟩ := by
  rfl

end Sample

open Sample in
/-- Calls an hour late, then two days and most of a third one later. -/
theorem late_refills_exact : (refills 1 dailyPool [DAY + 3600, 3 * DAY + 80000]).1 = 1500 := by
  have hs : NothingSaturates 1 dailyPool [DAY + 3600, 3 * DAY + 80000] :=
    ⟨fun pool hp => by cases hp; decide, fun pool hp => by cases hp; decide, trivial⟩
  have hexact := (refills_exact_iff dailyPool_stored (by decide) (by decide) hs).mpr (.inr (by decide))
  exact hexact.trans (by decide)

open Sample in
/-- Calls each day and a half lose every third day. -/
theorem slow_refills_lose_days :
    (refills 1 dailyPool [129600, 259200]).1 = 1000 ∧
    ¬ ∀ w pool ts, w.state.pools.lookup 1 = some pool → 0 < pool.refillPeriod → Ordered pool.lastRefill ts →
      NothingSaturates 1 w ts → (refills 1 w ts).1 = pool.refillRate *
        ((ts.getLastD pool.lastRefill - pool.lastRefill) / pool.refillPeriod : Nat) := by
  have hpaid : (refills 1 dailyPool [129600, 259200]).1 = 1000 := by decide +kernel
  refine ⟨hpaid, fun hall => ?_⟩
  have hexact := hall dailyPool _ [129600, 259200] dailyPool_stored (by decide) (by decide)
    ⟨fun pool hp => by cases hp; decide, fun pool hp => by cases hp; decide, trivial⟩
  rw [hpaid] at hexact
  exact absurd hexact (by decide)

end Conviction

end CallStake.Governance
