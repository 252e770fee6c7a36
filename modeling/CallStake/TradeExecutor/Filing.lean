import CallStake.Lib.Registry
import CallStake.TradeExecutor.Phases
import CallStake.TradeExecutor.Queue

/-!
# The maps and lists of the queue

The executor keeps the queued trades and the dead letters in maps, and lists of their ids beside them.

* `QueueFiled`: the queued trades and a list of ids are the ones of some phases.
* `LettersFiled`: the dead letters, the list of all and the lists of each user are.

There is one lemma for each way to write them: a trade joins the queue, is rewritten there, or leaves it; a dead
letter is added or taken out.
-/

namespace CallStake.TradeExecutor

open Registry

/-! ## Maps and lists -/

/-- What the map of queued trades says about a trade. -/
def QueuedTrade.place (t : QueuedTrade) : Nat × Nat × Nat := (t.queuedTradeId, t.queuedAtLedger, t.retryCount)

structure QueueFiled (ids : List Nat) (trades : Store Nat QueuedTrade) (φ : Nat → Phase) : Prop where
  listed : Lists ids fun id => (φ id).waits.isSome
  stored : ∀ id, (trades.lookup id).map QueuedTrade.place = (φ id).waits.map (id, ·)

section QueueFiled

variable {ids ids' : List Nat} {trades : Store Nat QueuedTrade} {φ : Nat → Phase} {id : Nat} {p : Phase}

theorem QueueFiled.stored_iff (h : QueueFiled ids trades φ) (id : Nat) :
    (trades.lookup id).isSome ↔ (φ id).waits.isSome := by
  have hs := congrArg Option.isSome (h.stored id)
  rw [Option.isSome_map, Option.isSome_map] at hs
  rw [hs]

/-- A stored trade is the one of its phase. -/
theorem QueueFiled.phase_of_stored (h : QueueFiled ids trades φ) {trade : QueuedTrade}
    (ht : trades.lookup id = some trade) :
    trade.queuedTradeId = id ∧ φ id = .queued trade.queuedAtLedger trade.retryCount := by
  have hs := h.stored id
  rw [ht] at hs
  cases hp : φ id <;> rw [hp] at hs
  case queued since n =>
    simp [QueuedTrade.place, Phase.waits] at hs
    obtain ⟨h1, h2, h3⟩ := hs
    exact ⟨h1, by rw [h2, h3]⟩
  all_goals cases hs

/-- The map after a write at one id. -/
theorem QueueFiled.stored_update (h : QueueFiled ids trades φ) {trades' : Store Nat QueuedTrade}
    (hself : (trades'.lookup id).map QueuedTrade.place = p.waits.map (id, ·))
    (hother : ∀ i, i ≠ id → trades'.lookup i = trades.lookup i) (i : Nat) :
    (trades'.lookup i).map QueuedTrade.place = (Function.update φ id p i).waits.map (i, ·) := by
  by_cases hi : i = id
  · subst hi
    rw [Function.update_self]
    exact hself
  · rw [Function.update_of_ne hi, hother i hi]
    exact h.stored i

theorem waits_update_iff (i : Nat) :
    (Function.update φ id p i).waits.isSome ↔ (i ≠ id ∧ (φ i).waits.isSome) ∨ (i = id ∧ p.waits.isSome) := by
  by_cases hi : i = id
  · subst hi
    simp
  · simp [hi]

/-- A trade joins the queue. -/
theorem QueueFiled.join (h : QueueFiled ids trades φ) (hnew : (φ id).waits = none) {trade : QueuedTrade}
    (hid : trade.queuedTradeId = id) :
    QueueFiled (ids ++ [id]) (trades.insert id trade)
      (Function.update φ id (.queued trade.queuedAtLedger trade.retryCount)) where
  listed := by
    refine h.listed.append (by simp [hnew]) fun i => ?_
    rw [waits_update_iff]
    by_cases hi : i = id
    · subst hi
      simp [Phase.waits]
    · simp [hi]
  stored := h.stored_update (by simp [QueuedTrade.place, Phase.waits, hid]) fun i hi =>
    AList.lookup_insert_ne hi

/-- A queued trade is rewritten. -/
theorem QueueFiled.rewrite (h : QueueFiled ids trades φ) (hold : (φ id).waits.isSome) {trade : QueuedTrade}
    (hid : trade.queuedTradeId = id) :
    QueueFiled ids (trades.insert id trade)
      (Function.update φ id (.queued trade.queuedAtLedger trade.retryCount)) where
  listed := by
    refine h.listed.congr fun i => ?_
    rw [waits_update_iff]
    by_cases hi : i = id
    · subst hi
      exact iff_of_true (.inr ⟨rfl, rfl⟩) hold
    · simp [hi]
  stored := h.stored_update (by simp [QueuedTrade.place, Phase.waits, hid]) fun i hi =>
    AList.lookup_insert_ne hi

/-- A trade leaves the queue. -/
theorem QueueFiled.leave (h : QueueFiled ids trades φ) (hp : p.waits = none)
    (hids : Lists ids' fun i => i ≠ id ∧ (φ i).waits.isSome) :
    QueueFiled ids' (trades.erase id) (Function.update φ id p) where
  listed := hids.congr fun i => by rw [waits_update_iff]; simp [hp]
  stored := h.stored_update (by simp [hp]) fun i hi => AList.lookup_erase_ne hi

/-- A trade that is not in the queue stays outside. -/
theorem QueueFiled.frame (h : QueueFiled ids trades φ) (hold : (φ id).waits = none) (hp : p.waits = none) :
    QueueFiled ids trades (Function.update φ id p) where
  listed := by
    refine h.listed.congr fun i => ?_
    rw [waits_update_iff]
    by_cases hi : i = id
    · subst hi
      simp [hold, hp]
    · simp [hi]
  stored := h.stored_update (by rw [h.stored id, hold, hp]) fun _ _ => rfl

end QueueFiled

/-- The dead letters of a user. -/
def Queue.lettersOf (q : Queue) (user : Address) : List Nat := (q.deadLetterIds.lookup user).getD []

structure LettersFiled (q : Queue) (φ : Nat → Phase) : Prop where
  stored : ∀ id, (q.deadLetterTrades.lookup id).isSome ↔ φ id = .deadLettered
  listed : Lists q.deadLetterAllIds fun id => φ id = .deadLettered
  listedOf : ∀ user, Lists (q.lettersOf user) fun id =>
    (q.deadLetterTrades.lookup id).map FailedTrade.user = some user

/-- The queue with a dead letter. -/
def Queue.letter (q : Queue) (id : Nat) (failed : FailedTrade) : Queue := { q with
  deadLetterTrades := q.deadLetterTrades.insert id failed
  deadLetterIds := q.deadLetterIds.insert failed.user (q.lettersOf failed.user ++ [id])
  deadLetterAllIds := q.deadLetterAllIds ++ [id] }

/-- The queue without a dead letter. -/
def Queue.unletter (q : Queue) (user : Address) (id : Nat) : Queue := { q with
  deadLetterTrades := q.deadLetterTrades.erase id
  deadLetterIds := q.deadLetterIds.insert user (removeId id (q.lettersOf user))
  deadLetterAllIds := removeId id q.deadLetterAllIds }

section LettersFiled

variable {q : Queue} {φ : Nat → Phase} {id : Nat} {p : Phase}

/-- Writes of the queued trades do not matter. -/
theorem LettersFiled.congr {q' : Queue} (h : LettersFiled q φ) (htrades : q'.deadLetterTrades = q.deadLetterTrades)
    (hids : q'.deadLetterIds = q.deadLetterIds) (hall : q'.deadLetterAllIds = q.deadLetterAllIds) :
    LettersFiled q' φ where
  stored := by rw [htrades]; exact h.stored
  listed := by rw [hall]; exact h.listed
  listedOf user := by
    rw [htrades, Queue.lettersOf, hids]
    exact h.listedOf user

theorem LettersFiled.frame (h : LettersFiled q φ) (hold : φ id ≠ .deadLettered) (hp : p ≠ .deadLettered) :
    LettersFiled q (Function.update φ id p) := by
  have hsame : ∀ i, Function.update φ id p i = .deadLettered ↔ φ i = .deadLettered := by
    intro i
    by_cases hi : i = id
    · subst hi
      simp [hold, hp]
    · simp [hi]
  exact ⟨fun i => (h.stored i).trans (hsame i).symm, h.listed.congr hsame, h.listedOf⟩

/-- A trade becomes a dead letter. -/
theorem LettersFiled.letter (h : LettersFiled q φ) (hnew : φ id ≠ .deadLettered) (failed : FailedTrade) :
    LettersFiled (q.letter id failed) (Function.update φ id .deadLettered) where
  stored i := by
    by_cases hi : i = id
    · subst hi
      simp [Queue.letter]
    · simp [Queue.letter, hi, AList.lookup_insert_ne hi, h.stored i]
  listed := by
    refine h.listed.append hnew fun i => ?_
    by_cases hi : i = id
    · subst hi
      simp
    · simp [hi]
  listedOf user := by
    have hnone : q.deadLetterTrades.lookup id = none := by
      have := mt (h.stored id).mp hnew
      simpa using this
    unfold Queue.lettersOf
    simp only [Queue.letter, Store.getD_insert]
    by_cases hu : user = failed.user
    · subst hu
      rw [if_pos rfl]
      refine (h.listedOf _).append (by simp [hnone]) fun i => ?_
      by_cases hi : i = id
      · subst hi
        simp
      · simp [hi, AList.lookup_insert_ne hi]
    · rw [if_neg hu]
      refine (h.listedOf user).congr fun i => ?_
      by_cases hi : i = id
      · subst hi
        simp [hnone, Ne.symm hu]
      · rw [AList.lookup_insert_ne hi]

/-- A dead letter is taken out. -/
theorem LettersFiled.unletter (h : LettersFiled q φ) (hp : p ≠ .deadLettered) {failed : FailedTrade}
    (hf : q.deadLetterTrades.lookup id = some failed) :
    LettersFiled (q.unletter failed.user id) (Function.update φ id p) where
  stored i := by
    by_cases hi : i = id
    · subst hi
      simp [Queue.unletter, hp]
    · simp [Queue.unletter, hi, AList.lookup_erase_ne hi, h.stored i]
  listed := by
    refine h.listed.erase fun i => ?_
    by_cases hi : i = id
    · subst hi
      simp [hp]
    · simp [hi]
  listedOf user := by
    unfold Queue.lettersOf
    simp only [Queue.unletter, Store.getD_insert]
    by_cases hu : user = failed.user
    · subst hu
      rw [if_pos rfl]
      refine (h.listedOf _).erase fun i => ?_
      by_cases hi : i = id
      · subst hi
        simp
      · simp [hi, AList.lookup_erase_ne hi]
    · rw [if_neg hu]
      refine (h.listedOf user).congr fun i => ?_
      by_cases hi : i = id
      · subst hi
        simp [hf, Ne.symm hu]
      · rw [AList.lookup_erase_ne hi]

end LettersFiled

end CallStake.TradeExecutor
