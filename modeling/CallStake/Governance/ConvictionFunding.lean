import CallStake.Governance.Conviction

/-!
# The funds of conviction pools

A proposal is funded when its conviction is brought up to date, if it is still active; or by an explicit
call, which does not look at the status.

* `SamePools`: votes and weights change, and nothing that the funds depend on.
* `funds_of_active`: where the explicit call finds active proposals and no identifier is used twice, the
  funds are in order in every run.
* `funded_proposal_paid_again`: the explicit call pays a funded proposal again.
-/

namespace CallStake.Governance

open Store

namespace Conviction

/-! ## The log of the funds -/

def FundEntry.poolId : FundEntry → Nat
  | .opened poolId _ | .refilled poolId _ _ | .paid poolId _ => poolId

/-- What a pool received. -/
def FundEntry.received (id : Nat) : FundEntry → Int
  | .opened poolId amount | .refilled poolId amount _ => if poolId = id then amount else 0
  | .paid .. => 0

/-- A refill that the pool could not take. -/
def FundEntry.overflows (id : Nat) : FundEntry → Bool
  | .refilled poolId _ saturated => decide (poolId = id) && saturated
  | _ => false

def FundEntry.payment : FundEntry → Option (Nat × Nat)
  | .paid poolId proposalId => some (poolId, proposalId)
  | _ => none

/-- The initial funds of a pool and what its refills returned. -/
def received (log : List FundEntry) (poolId : Nat) : Int := (log.map (·.received poolId)).sum

/-- A refill of the pool saturated. -/
def saturated (log : List FundEntry) (poolId : Nat) : Bool := log.any (·.overflows poolId)

/-- The proposals that were paid, once for each time. -/
def payments (log : List FundEntry) : List (Nat × Nat) := log.filterMap FundEntry.payment

/-- What was granted to the proposals of a pool. -/
def ConvictionVotingPool.granted (pool : ConvictionVotingPool) : Int := Store.total (·.fundingGranted) pool.proposals

/-- No proposal was paid twice; and as long as no refill of a pool saturates, its funds and what was
granted from them are what it received. -/
structure FundsInOrder (w : World) : Prop where
  once : (payments w.log).Nodup
  balanced (poolId : Nat) (pool : ConvictionVotingPool) : w.state.pools.lookup poolId = some pool →
    saturated w.log poolId = false → pool.fundingAmount + pool.granted = received w.log poolId

/-! ## Condition -/

/-- What the code does not ask: a proposal that is funded by an explicit call is active, and the next
identifiers of pools and proposals are not taken. -/
def World.Unfunded (w : World) : Call → Prop
  | .executeConvictionFunding poolId proposalId => ∀ pool ∈ w.state.pools.lookup poolId,
      ∀ p ∈ pool.proposals.lookup proposalId, p.status = .active
  | .createConvictionPool .. => w.state.pools.lookup w.state.nextPoolId = none
  | .createConvictionProposal poolId .. => ∀ pool ∈ w.state.pools.lookup poolId,
      pool.proposals.lookup w.state.nextProposalId = none
  | _ => True

def Unfunded (w : World) : Event → Prop
  | .call _ c => w.Unfunded c
  | .advance _ => True

instance (w : World) (c : Call) : Decidable (w.Unfunded c) := by
  cases c with
  | executeConvictionFunding | createConvictionProposal => exact inferInstanceAs (Decidable (∀ _ ∈ _, _))
  | createConvictionPool => exact inferInstanceAs (Decidable (_ = _))
  | _ => exact isTrue trivial

instance (w : World) : (ev : Event) → Decidable (Unfunded w ev)
  | .call _ c => inferInstanceAs (Decidable (w.Unfunded c))
  | .advance _ => isTrue trivial

/-! ## Invariant -/

/-- The funds of a pool. -/
structure PoolKept (log : List FundEntry) (poolId : Nat) (pool : ConvictionVotingPool) : Prop where
  amount : 0 ≤ pool.fundingAmount ∧ pool.fundingAmount ≤ i128Max
  rate : 0 ≤ pool.refillRate
  balanced : saturated log poolId = false → pool.fundingAmount + pool.granted = received log poolId
  proposal (id : Nat) (p : ConvictionProposal) : pool.proposals.lookup id = some p →
    0 < p.requestedAmount ∧ (p.status = .active → p.fundingGranted = 0)

/-- The proposal was funded. -/
def ConvictionVotingPool.Paid (pool : ConvictionVotingPool) (id : Nat) : Prop :=
  ∃ p, pool.proposals.lookup id = some p ∧ p.status = .funded

structure FundsKept (w : World) : Prop where
  pool (poolId : Nat) (pool : ConvictionVotingPool) : w.state.pools.lookup poolId = some pool →
    PoolKept w.log poolId pool
  logged (e : FundEntry) : e ∈ w.log → (w.state.pools.lookup e.poolId).isSome
  once : (payments w.log).Nodup
  paid (poolId id : Nat) (pool : ConvictionVotingPool) : (poolId, id) ∈ payments w.log →
    w.state.pools.lookup poolId = some pool → pool.Paid id

/-- What of a proposal the funds depend on. -/
def ConvictionProposal.funds (p : ConvictionProposal) : ConvictionStatus × Int × Int :=
  (p.status, p.requestedAmount, p.fundingGranted)

/-- The pools differ in votes and weights only. -/
structure SamePools (pool pool' : ConvictionVotingPool) : Prop where
  amount : pool'.fundingAmount = pool.fundingAmount
  rate : pool'.refillRate = pool.refillRate
  granted : pool'.granted = pool.granted
  funds (id : Nat) : (pool'.proposals.lookup id).map (·.funds) = (pool.proposals.lookup id).map (·.funds)

namespace SamePools

variable {pool pool₁ pool' : ConvictionVotingPool} {log : List FundEntry} {poolId id : Nat}
  {p p' : ConvictionProposal}

theorem trans (h : SamePools pool pool₁) (h' : SamePools pool₁ pool') : SamePools pool pool' :=
  ⟨h'.amount.trans h.amount, h'.rate.trans h.rate, h'.granted.trans h.granted,
    fun id => (h'.funds id).trans (h.funds id)⟩

theorem put (hp : pool.proposals.lookup id = some p) (hf : p'.funds = p.funds) :
    SamePools pool (pool.put id p') where
  amount := rfl
  rate := rfl
  granted := by
    have hgranted : p'.fundingGranted = p.fundingGranted := congrArg (·.2.2) hf
    rw [ConvictionVotingPool.granted, ConvictionVotingPool.put, total_insert, part_some hp,
      hgranted, ConvictionVotingPool.granted]
    omega
  funds i := by
    rw [ConvictionVotingPool.put, lookup_insert_eq]
    split
    · subst ‹i = id›
      rw [hp, Option.map_some, Option.map_some, hf]
    · rfl

/-- Two proposals are replaced, or the same one twice. -/
theorem switch {i j : Nat} {q q' : ConvictionProposal} (hp : pool.proposals.lookup i = some p)
    (hq : pool.proposals.lookup j = some q) (hf : p'.funds = p.funds) (hf' : q'.funds = q.funds) :
    SamePools pool ((pool.put i p').put j q') := by
  by_cases hij : j = i
  · subst hij
    rw [hp] at hq
    cases hq
    have hlookup : (pool.put j p').proposals.lookup j = some p' := AList.lookup_insert _
    exact (put hp hf).trans (put hlookup (hf'.trans hf.symm))
  · have hlookup : (pool.put i p').proposals.lookup j = some q := by
      rw [ConvictionVotingPool.put, lookup_insert_eq, if_neg hij]
      exact hq
    exact (put hp hf).trans (put hlookup hf')

theorem find (h : SamePools pool pool') (hp : pool'.proposals.lookup id = some p') :
    ∃ p, pool.proposals.lookup id = some p ∧ p.funds = p'.funds := by
  have hfunds := h.funds id
  rw [hp] at hfunds
  exact Option.map_eq_some_iff.mp hfunds.symm

theorem kept (h : SamePools pool pool') (hk : PoolKept log poolId pool) : PoolKept log poolId pool' where
  amount := by rw [h.amount]; exact hk.amount
  rate := by rw [h.rate]; exact hk.rate
  balanced := by rw [h.amount, h.granted]; exact hk.balanced
  proposal i q hq := by
    obtain ⟨p, hp, hf⟩ := h.find hq
    obtain ⟨hpos, hactive⟩ := hk.proposal i p hp
    simp [ConvictionProposal.funds] at hf
    rw [← hf.1, ← hf.2.1, ← hf.2.2]
    exact ⟨hpos, hactive⟩

theorem paid (h : SamePools pool pool') (hp : pool.Paid id) : pool'.Paid id := by
  obtain ⟨p, hp, hstatus⟩ := hp
  have hfunds := h.funds id
  rw [hp] at hfunds
  obtain ⟨p', hp', hf⟩ := Option.map_eq_some_iff.mp hfunds
  exact ⟨p', hp', (congrArg Prod.fst hf).trans hstatus⟩

end SamePools

namespace FundsKept

variable {w w' : World} {poolId id : Nat} {pool pool' : ConvictionVotingPool} {p p' : ConvictionProposal}

theorem of_same (h : FundsKept w) (hp : w'.state.pools = w.state.pools) (hl : w'.log = w.log) :
    FundsKept w' where
  pool := by rw [hp, hl]; exact h.pool
  logged := by rw [hp, hl]; exact h.logged
  once := by rw [hl]; exact h.once
  paid := by rw [hp, hl]; exact h.paid

/-- One pool is replaced, and what is logged is about this pool. -/
theorem replace (h : FundsKept w) (entries : List FundEntry) (hentries : ∀ e ∈ entries, e.poolId = poolId)
    (hpools : w'.state.pools = w.state.pools.insert poolId pool') (hlog : w'.log = entries ++ w.log)
    (hkept : PoolKept w'.log poolId pool')
    (hother : ∀ id, id ≠ poolId → saturated w'.log id = saturated w.log id ∧ received w'.log id = received w.log id)
    (honce : (payments w'.log).Nodup)
    (hpaid : ∀ id, (poolId, id) ∈ payments w'.log → pool'.Paid id)
    (hrest : ∀ i id, i ≠ poolId → (i, id) ∈ payments w'.log → (i, id) ∈ payments w.log) :
    FundsKept w' where
  pool i q hq := by
    rw [hpools, lookup_insert_eq] at hq
    split at hq
    · subst ‹i = poolId›
      cases hq
      exact hkept
    · have hk := h.pool i q hq
      obtain ⟨hsat, hrec⟩ := hother i ‹_›
      exact { hk with balanced := by rw [hsat, hrec]; exact hk.balanced }
  logged e he := by
    rw [hlog] at he
    rw [hpools, lookup_insert_eq]
    split
    · rfl
    · rcases List.mem_append.mp he with he | he
      · exact absurd (hentries e he) ‹_›
      · exact h.logged e he
  once := honce
  paid i id q hm hq := by
    rw [hpools, lookup_insert_eq] at hq
    split at hq
    · subst ‹i = poolId›
      cases hq
      exact hpaid id hm
    · exact h.paid i id q (hrest i id ‹_› hm) hq

/-- Votes and weights change. -/
theorem same (h : FundsKept w) (hstored : w.state.pools.lookup poolId = some pool)
    (hw : w' = w.putPool poolId pool') (hs : SamePools pool pool') : FundsKept w' := by
  subst hw
  exact h.replace [] (by simp) rfl rfl (hs.kept (h.pool poolId pool hstored))
    (fun _ _ => ⟨rfl, rfl⟩) h.once (fun id hm => hs.paid (h.paid poolId id pool hm hstored))
    fun _ _ _ hm => hm

/-- Nothing is logged of a pool that is not there. -/
theorem nothing_logged (h : FundsKept w) (hnone : w.state.pools.lookup poolId = none) :
    saturated w.log poolId = false ∧ received w.log poolId = 0 ∧ ∀ id, (poolId, id) ∉ payments w.log := by
  have hne : ∀ e ∈ w.log, e.poolId ≠ poolId := by
    intro e he heq
    have := h.logged e he
    rw [heq, hnone] at this
    cases this
  refine ⟨?_, ?_, ?_⟩
  · rw [saturated, List.any_eq_false]
    intro e he
    have := hne e he
    cases e <;> simp_all [FundEntry.overflows, FundEntry.poolId]
  · refine List.sum_eq_zero fun x hx => ?_
    obtain ⟨e, he, rfl⟩ := List.mem_map.mp hx
    have := hne e he
    cases e <;> simp_all [FundEntry.received, FundEntry.poolId]
  · intro id hm
    obtain ⟨e, he, hpay⟩ := List.mem_filterMap.mp hm
    have := hne e he
    cases e <;> simp_all [FundEntry.payment, FundEntry.poolId]

theorem openPool (h : FundsKept w) {amount refillRate : Int} {refillPeriod : Nat} (hpos : 0 < amount)
    (hmax : amount ≤ i128Max) (hrate : 0 ≤ refillRate)
    (hnone : w.state.pools.lookup w.state.nextPoolId = none)
    (hpools : w'.state.pools = w.state.pools.insert w.state.nextPoolId
      (newPool w amount refillRate refillPeriod))
    (hlog : w'.log = .opened w.state.nextPoolId amount :: w.log) : FundsKept w' := by
  obtain ⟨-, hreceived, hpayments⟩ := h.nothing_logged hnone
  refine h.replace [.opened w.state.nextPoolId amount] (by simp [FundEntry.poolId]) hpools hlog ?_ ?_ ?_ ?_ ?_
  · rw [hlog]
    refine ⟨⟨Int.le_of_lt hpos, hmax⟩, hrate, fun _ => ?_, fun i p hp => ?_⟩
    · have : received (.opened w.state.nextPoolId amount :: w.log) w.state.nextPoolId =
          amount + received w.log w.state.nextPoolId := by
        simp [received, FundEntry.received]
      rw [this, hreceived]
      rfl
    · cases hp
  · intro i hi
    rw [hlog]
    simp [saturated, received, FundEntry.overflows, FundEntry.received, Ne.symm hi]
  · rw [hlog]
    exact h.once
  · intro i hm
    rw [hlog] at hm
    exact absurd hm (hpayments i)
  · intro i j _ hm
    rw [hlog] at hm
    exact hm

theorem propose (h : FundsKept w) {pool' : ConvictionVotingPool} {proposer beneficiary : Address}
    {title : Bytes} {amount threshold : Int} {proposalIds : List Nat}
    (hstored : w.state.pools.lookup poolId = some pool) (hpos : 0 < amount)
    (hnone : pool.proposals.lookup id = none)
    (hpool' : pool' = { pool.put id (newProposal id proposer title amount beneficiary threshold) with
      proposalIds })
    (hpools : w'.state.pools = w.state.pools.insert poolId pool') (hlog : w'.log = w.log) :
    FundsKept w' := by
  have hk := h.pool poolId pool hstored
  have hgranted : pool'.granted = pool.granted := by
    rw [hpool']
    simp only [ConvictionVotingPool.granted, ConvictionVotingPool.put, total_insert, part_none hnone, newProposal]
    omega
  have hlookup : ∀ i, pool'.proposals.lookup i = if i = id then
      some (newProposal id proposer title amount beneficiary threshold) else pool.proposals.lookup i := by
    intro i
    rw [hpool']
    exact lookup_insert_eq ..
  refine h.replace [] (by simp) hpools hlog ?_ ?_ ?_ ?_ ?_
  · rw [hlog]
    refine ⟨by rw [hpool']; exact hk.amount, by rw [hpool']; exact hk.rate, fun hs => ?_, fun i p hp => ?_⟩
    · rw [hgranted, hpool']
      exact hk.balanced hs
    · rw [hlookup] at hp
      split at hp
      · cases hp
        exact ⟨hpos, fun _ => rfl⟩
      · exact hk.proposal i p hp
  · intro i _
    rw [hlog]
    exact ⟨rfl, rfl⟩
  · rw [hlog]
    exact h.once
  · intro i hm
    rw [hlog] at hm
    obtain ⟨p, hp, hstatus⟩ := h.paid poolId i pool hm hstored
    refine ⟨p, ?_, hstatus⟩
    rw [hlookup, if_neg (by rintro rfl; rw [hnone] at hp; cases hp)]
    exact hp
  · intro i j _ hm
    rw [hlog] at hm
    exact hm

/-- An active proposal is paid, with its votes brought up to date or not; it was not paid before. -/
theorem fund (h : FundsKept w) {p₀ : ConvictionProposal} (hp : Found w poolId id pool p₀)
    (hfunds : p.funds = p₀.funds) (hf : Funds pool p pool' p') (hactive : p₀.status = .active) :
    FundsKept ((w.putPool poolId (pool'.put id p')).note (.paid poolId id)) := by
  have hk := h.pool poolId pool hp.pooled
  obtain ⟨hpos, hgranted⟩ := hk.proposal id p₀ hp.stored
  have hzero := hgranted hactive
  have hrequested : p.requestedAmount = p₀.requestedAmount := congrArg (·.2.1) hfunds
  rw [← hrequested] at hpos
  have hnew : (poolId, id) ∉ payments w.log := by
    intro hm
    obtain ⟨q, hq, hstatus⟩ := h.paid poolId id pool hm hp.pooled
    rw [hp.stored] at hq
    cases hq
    rw [hactive] at hstatus
    cases hstatus
  have hsub : saturatingSub pool.fundingAmount p.requestedAmount =
      pool.fundingAmount - p.requestedAmount :=
    saturatingSub_part (Int.le_of_lt hpos) hf.covered hk.amount.2
  have htotal : (pool'.put id p').granted = pool.granted + p.requestedAmount := by
    rw [hf.pool, hf.proposal]
    simp only [ConvictionVotingPool.granted, ConvictionVotingPool.put, total_insert, part_some hp.stored, hzero]
    omega
  have hamount : (pool'.put id p').fundingAmount = pool.fundingAmount - p.requestedAmount := by
    rw [hf.pool]
    exact hsub
  have hlookup : ∀ i, (pool'.put id p').proposals.lookup i =
      if i = id then some p' else pool.proposals.lookup i := by
    intro i
    rw [hf.pool]
    exact lookup_insert_eq ..
  refine h.replace [.paid poolId id] (by simp [FundEntry.poolId]) rfl rfl ?_ ?_ ?_ ?_ ?_
  · have hcovered := hf.covered
    have hbounds := hk.amount
    refine ⟨by rw [hamount]; omega, by rw [hf.pool]; exact hk.rate, fun hs => ?_, fun i q hq => ?_⟩
    · have hb := hk.balanced hs
      have hr : received (.paid poolId id :: w.log) poolId = received w.log poolId := by
        simp [received, FundEntry.received]
      rw [hamount, htotal]
      refine Eq.trans ?_ hr.symm
      omega
    · rw [hlookup] at hq
      split at hq
      · cases hq
        rw [hf.proposal]
        exact ⟨hpos, fun hs => by cases hs⟩
      · exact hk.proposal i q hq
  · intro i _
    exact ⟨by simp [saturated, World.note, World.putPool, FundEntry.overflows],
      by simp [received, World.note, World.putPool, FundEntry.received]⟩
  · exact List.nodup_cons.mpr ⟨hnew, h.once⟩
  · intro i hm
    rcases List.mem_cons.mp (show (poolId, i) ∈ (poolId, id) :: payments w.log from hm) with heq | hm
    · cases heq
      exact ⟨p', by rw [hlookup, if_pos rfl], by rw [hf.proposal]⟩
    · obtain ⟨q, hq, hstatus⟩ := h.paid poolId i pool hm hp.pooled
      have hi : i ≠ id := fun heq => hnew (heq ▸ hm)
      exact ⟨q, by rw [hlookup, if_neg hi]; exact hq, hstatus⟩
  · intro i j hi hm
    rcases List.mem_cons.mp (show (i, j) ∈ (poolId, id) :: payments w.log from hm) with heq | hm
    · cases heq
      exact absurd rfl hi
    · exact hm

theorem refill (h : FundsKept w) {refills : Nat} {amount : Int}
    (hstored : w.state.pools.lookup poolId = some pool)
    (hamount : amount = saturatingMul pool.refillRate refills) (now : Nat) :
    FundsKept ((w.putPool poolId { pool with
      fundingAmount := saturatingAdd pool.fundingAmount amount, lastRefill := now }).note
      (.refilled poolId amount (decide (i128Max < pool.fundingAmount + amount)))) := by
  have hk := h.pool poolId pool hstored
  obtain ⟨h0, hmax⟩ := hk.amount
  have hpos : 0 ≤ amount := by
    rw [hamount, saturatingMul]
    have := Int.mul_nonneg hk.rate (Int.natCast_nonneg refills)
    unfold clamp i128Min i128Max
    omega
  generalize hsat : decide (i128Max < pool.fundingAmount + amount) = sat
  refine h.replace [.refilled poolId amount sat] (by simp [FundEntry.poolId]) rfl rfl ?_ ?_ ?_ ?_ ?_
  · refine ⟨?_, hk.rate, fun hs => ?_, hk.proposal⟩
    · simp only [saturatingAdd, clamp, i128Min]
      have : (0 : Int) ≤ i128Max := by decide
      omega
    · have hs' : sat = false ∧ saturated w.log poolId = false := by
        simpa [saturated, World.note, World.putPool, FundEntry.overflows] using hs
      have hfits : pool.fundingAmount + amount ≤ i128Max := by
        rw [hs'.1, decide_eq_false_iff_not] at hsat
        exact Int.not_lt.mp hsat
      have hb := hk.balanced hs'.2
      have hr : received (.refilled poolId amount sat :: w.log) poolId =
          amount + received w.log poolId := by
        simp [received, FundEntry.received]
      refine Eq.trans ?_ hr.symm
      simp only [saturatingAdd_part h0 hpos hfits, ← hb, ConvictionVotingPool.granted]
      omega
  · intro i hi
    simp [saturated, World.note, World.putPool, FundEntry.overflows, Ne.symm hi, received, FundEntry.received]
  · exact h.once
  · exact fun i hm => h.paid poolId i pool hm hstored
  · exact fun _ _ _ hm => hm

theorem move {auth : Auth} {c : Call} (h : FundsKept w) (hu : Unfunded w (.call auth c))
    (ha : Allowed w (.call auth c)) (hm : Move w c w') : FundsKept w' := by
  cases hm with
  | openPool hpos hrate _ hpools hlog => exact h.openPool hpos ha hrate hu hpools hlog
  | propose hpool hpos _ hpools hlog => exact h.propose hpool hpos (hu _ hpool) rfl hpools hlog
  | vote hp _ _ hw => exact h.same hp.pooled hw (.put hp.stored rfl)
  | update hp hw => exact h.same hp.pooled hw (.put hp.stored rfl)
  | @updateFund _ _ _ _ p _ _ hp hactive hf hw =>
    subst hw
    have hsame : (p.updated w.now w.calibration).funds = p.funds := rfl
    exact h.fund hp hsame hf hactive
  | fund hp hf hw =>
    subst hw
    exact h.fund hp rfl hf (hu _ hp.pooled _ hp.stored)
  | change hs ht _ hw =>
    exact h.same hs.pooled hw (.switch hs.stored ht.stored rfl rfl)
  | refill hpool hamount hw =>
    subst hw
    exact h.refill hpool hamount w.now
  | withdraw hp _ hw => exact h.same hp.pooled hw (.put hp.stored rfl)
  | other hpools hlog => exact h.of_same hpools hlog

theorem start (now : Nat) : FundsKept (World.deployed now) where
  pool := by rintro _ _ ⟨⟩
  logged := by rintro _ ⟨⟩
  once := List.nodup_nil
  paid := by rintro _ _ _ ⟨⟩

theorem step {ev : Event} (h : FundsKept w) (hu : Unfunded w ev) (hs : Step w ev w') : FundsKept w' := by
  rcases hs.cases with ⟨auth, c, rfl, hm⟩ | ⟨hpools, hlog⟩
  · exact h.move hu hs.1 hm
  · exact h.of_same hpools hlog

end FundsKept

/-- In every run in which proposals that are funded by an explicit call are active and no identifier is
used twice: each proposal is paid at most once, and as long as no refill of a pool saturates, its funds and
what was granted from them are what it received. -/
theorem funds_of_active {now : Nat} {w : World}
    (h : Reaches (fun w ev w' => Unfunded w ev ∧ Step w ev w') (World.deployed now) w) :
    FundsInOrder w := by
  have hk : FundsKept w := h.invariant (.start now) fun _ _ _ hI ⟨hu, hs⟩ => hI.step hu hs
  exact ⟨hk.once, fun poolId pool hpool => (hk.pool poolId pool hpool).balanced⟩

namespace Sample

/-- The proposal reaches its threshold and is funded once, however often its votes are counted. -/
def fundedRun : List Event :=
  proposedRun ++ [.advance (4 * DAY), callBy bob (.refillConvictionPool 1),
    callBy bob (.updateProposalConviction 1 1), .advance (5 * DAY),
    callBy bob (.updateProposalConviction 1 1), callBy alice (.withdrawConvictionVote 1 1 alice)]

/-- The pool pays once, and the rest stays. -/
theorem active_proposal_is_funded :
    let w := run (World.deployed 0) fundedRun
    payments w.log = [(1, 1)] ∧ received w.log 1 = 12000 ∧ FundsInOrder w :=
  ⟨by decide +kernel, by decide +kernel, funds_of_active (reaches_run (by decide +kernel))⟩

/-- Anyone asks for the funds again. -/
def paidAgainRun : List Event :=
  proposedRun ++ [.advance (4 * DAY), callBy bob (.updateProposalConviction 1 1),
    callBy bob (.executeConvictionFunding 1 1)]

/-- The pool pays twice for one proposal. -/
theorem funded_proposal_paid_again :
    let w := run (World.deployed 0) paidAgainRun
    payments w.log = [(1, 1), (1, 1)] ∧ received w.log 1 = 10000 ∧
      (w.state.pools.lookup 1).map (fun pool => (pool.fundingAmount, pool.granted)) =
        some (9800, 100) ∧ ¬FundsInOrder w := by
  refine ⟨by decide +kernel, by decide +kernel, by decide +kernel, fun h => ?_⟩
  exact absurd h.once (by decide +kernel)

end Sample

end Conviction

end CallStake.Governance
