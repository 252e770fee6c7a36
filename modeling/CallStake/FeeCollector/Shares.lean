import CallStake.FeeCollector.Ledgers
import CallStake.FeeCollector.Parts
import CallStake.Lib.Windows

/-!
# The log of earnings

The shares of a provider are added to the bucket of the day and to its total.

* `Share`, `Call.shares`: what a call records. `earnings_of_call`: it is added, and nothing else is.
* `EarningsStorage.Records`: the buckets, the total and the first day are those of a log of shares, for each
  provider whose shares can be added up. `Records.add`: a share is recorded.
* `Recording`: a run with the log of its shares. `Logged`: the log is recorded, in the order of the days.
* `snapshot`, `before_of_reaches`: the history of a provider goes on with the run.
-/

namespace CallStake.FeeCollector

open List

variable {τ : Type}

open Dated

/-! ## Shares -/

/-- `current_day`. -/
def currentDay (w : World τ) : Nat := w.ledger.timestamp / SECONDS_PER_DAY

namespace EarningsStorage

/-- `get_provider_daily_fee_shares`. -/
def dailyShares (e : EarningsStorage) (provider : Address) (day : Nat) : Int :=
  (e.dailyFeeShares.lookup (provider, day)).getD 0

/-- `get_provider_total_earnings`. -/
def total (e : EarningsStorage) (provider : Address) : Int := (e.totalEarnings.lookup provider).getD 0

end EarningsStorage

/-- What a provider got on a day. -/
structure Share where
  provider : Address
  day : Nat
  amount : Int

/-- A share is added to the bucket of its day and to the total. -/
def EarningsStorage.add (e : EarningsStorage) (share : Share) : EarningsStorage where
  dailyFeeShares := e.dailyFeeShares.insert (share.provider, share.day)
    (saturatingAdd (e.dailyShares share.provider share.day) share.amount)
  firstDay := if (e.firstDay.lookup share.provider).isSome = true then e.firstDay
    else e.firstDay.insert share.provider share.day
  totalEarnings := e.totalEarnings.insert share.provider
    (saturatingAdd (e.total share.provider) share.amount)
  index := if share.provider ∈ e.index then e.index else e.index ++ [share.provider]

/-- The share of the provider in a gross amount. -/
def FeeSplitPolicy.providerShare (policy : FeeSplitPolicy) (gross : Int) : Int :=
  gross - (gross * policy.protocolBps).tdiv BPS_TOTAL

/-- The shares that a successful call records. -/
def Call.shares (w : World τ) : Call → List Share
  | .recordProviderFeeShare _ provider amount => [⟨provider, currentDay w, amount⟩]
  | .recordProviderGrossFeeShare _ provider gross =>
    let amount := w.store.config.feeSplitPolicy.providerShare gross
    if 0 < amount then [⟨provider, currentDay w, amount⟩] else []
  | _ => []

section Call

variable {env : Env τ} {w w' : World τ} {c : Call} {u : Unit}

theorem addProviderDailyFeeShares_eq (provider : Address) (day : Nat) (amount : Int) :
    (addProviderDailyFeeShares provider day amount : F τ Unit) =
      save fun s => { s with earnings := s.earnings.add ⟨provider, day, amount⟩ } := rfl

theorem split_ok {policy : FeeSplitPolicy} {gross protocolAmount providerAmount : Int}
    (h : (policy.split gross : F τ _) w = (.ok (protocolAmount, providerAmount), w')) :
    providerAmount = policy.providerShare gross ∧ w' = w := by
  simp only [FeeSplitPolicy.split, Tx.bind_failIf_ok, bind_orOverflow_ok, Tx.pure_ok, Prod.mk.injEq,
    checkedMul_eq_some, checkedSub_eq_some] at h
  obtain ⟨-, _, ⟨-, -, rfl⟩, _, ⟨-, -, rfl⟩, ⟨-, rfl⟩, rfl⟩ := h
  exact ⟨rfl, rfl⟩

theorem shares_of_quiet (h : .earnings ∉ c.parts) : c.shares w = [] := by
  cases c
  case recordProviderFeeShare => exact absurd mem_cons_self h
  case recordProviderGrossFeeShare => exact absurd mem_cons_self h
  all_goals rfl

/-- A call adds the shares that it records, all of them positive, and changes no other earnings. -/
theorem earnings_of_call (hr : invoke env c w = (.ok u, w')) :
    w'.store.earnings = (c.shares w).foldl .add w.store.earnings ∧
      ∀ share ∈ c.shares w, 0 < share.amount ∧ share.day = currentDay w := by
  by_cases hwrites : .earnings ∈ c.parts
  · obtain ⟨caller, provider, amount, rfl⟩ | ⟨caller, provider, gross, rfl⟩ := Call.of_earnings hwrites
    · simp only [invoke, recordProviderFeeShare, bind_requireInitialized_ok] at hr
      have hr := bind_requireAuthorizedCaller_ok hr.2
      simp only [Tx.bind_failIf_ok, bind_timestamp_ok, addProviderDailyFeeShares_eq, save_ok] at hr
      obtain ⟨hpos, rfl⟩ := hr
      refine ⟨rfl, fun share hshare => ?_⟩
      cases List.mem_singleton.mp hshare
      exact ⟨Int.not_le.mp hpos, rfl⟩
    · simp only [invoke, Tx.void_ok, recordProviderGrossFeeShare, bind_requireInitialized_ok] at hr
      obtain ⟨shares, -, hr⟩ := hr
      have hr := bind_requireAuthorizedCaller_ok hr
      rw [Tx.bind_failIf_ok, bind_load_ok] at hr
      obtain ⟨-, hr⟩ := hr
      obtain ⟨⟨protocolAmount, providerAmount⟩, _, hsplit, hr⟩ := Tx.bind_ok.mp hr
      obtain ⟨rfl, rfl⟩ := split_ok hsplit
      dsimp only [Call.shares] at hr ⊢
      split at hr
      · rename_i hpos
        simp [addProviderDailyFeeShares_eq] at hr
        obtain ⟨-, rfl⟩ := hr
        rw [if_pos hpos]
        refine ⟨rfl, fun share hshare => ?_⟩
        cases List.mem_singleton.mp hshare
        exact ⟨hpos, rfl⟩
      · rename_i hnothing
        obtain ⟨-, rfl⟩ := Tx.pure_ok.mp hr
        rw [if_neg hnothing]
        exact ⟨rfl, fun _ hshare => absurd hshare not_mem_nil⟩
  · rw [shares_of_quiet hwrites]
    exact ⟨((invoke_keeps env c).of_run hr).earnings hwrites, fun _ hshare => absurd hshare not_mem_nil⟩

end Call

/-! ## The log of the shares -/

/-- The days and amounts of the shares of a provider. -/
def sharesOf (provider : Address) (log : List Share) : List (Nat × Int) :=
  (log.filter (·.provider = provider)).map fun share => (share.day, share.amount)

/-- The first days are those of the log, and so are the buckets and the total of a provider whose shares can
be added up. -/
structure EarningsStorage.Records (e : EarningsStorage) (log : List Share) : Prop where
  positive : ∀ share ∈ log, 0 < share.amount
  first : ∀ provider, e.firstDay.lookup provider = (sharesOf provider log).head?.map Prod.fst
  daily : ∀ provider, Dated.total (sharesOf provider log) ≤ i128Max →
    ∀ day, e.dailyShares provider day = within day (day + 1) (sharesOf provider log)
  total : ∀ provider, Dated.total (sharesOf provider log) ≤ i128Max →
    e.total provider = Dated.total (sharesOf provider log)

section Records

variable {e : EarningsStorage} {log : List Share} {share : Share} {provider : Address}

theorem sharesOf_append (log log' : List Share) :
    sharesOf provider (log ++ log') = sharesOf provider log ++ sharesOf provider log' := by
  unfold sharesOf
  rw [filter_append, map_append]

theorem sharesOf_same (h : share.provider = provider) :
    sharesOf provider [share] = [(share.day, share.amount)] := by
  simp [sharesOf, h]

theorem sharesOf_other (h : share.provider ≠ provider) : sharesOf provider [share] = [] := by
  simp [sharesOf, h]

theorem sharesOf_mem {entry : Nat × Int} (h : entry ∈ sharesOf provider log) :
    ∃ share ∈ log, share.day = entry.1 ∧ share.amount = entry.2 := by
  obtain ⟨share, hshare, rfl⟩ := List.mem_map.mp h
  exact ⟨share, (List.mem_filter.mp hshare).1, rfl, rfl⟩

theorem EarningsStorage.Records.pos (h : e.Records log) : ∀ entry ∈ sharesOf provider log, 0 < entry.2 := by
  intro entry hentry
  obtain ⟨share, hshare, -, hamount⟩ := sharesOf_mem hentry
  rw [← hamount]
  exact h.positive share hshare

theorem EarningsStorage.Records.nonneg (h : e.Records log) :
    ∀ entry ∈ sharesOf provider log, 0 ≤ entry.2 := fun entry hentry => (h.pos entry hentry).le

/-! What a share changes. -/

theorem add_dailyShares (e : EarningsStorage) (share : Share) (provider : Address) (day : Nat) :
    (e.add share).dailyShares provider day = if provider = share.provider ∧ day = share.day then
      saturatingAdd (e.dailyShares provider day) share.amount else e.dailyShares provider day := by
  unfold EarningsStorage.add EarningsStorage.dailyShares
  dsimp only
  rw [Store.lookup_insert_eq]
  by_cases hkey : provider = share.provider ∧ day = share.day
  · obtain ⟨rfl, rfl⟩ := hkey
    rw [if_pos rfl, if_pos ⟨rfl, rfl⟩]
    rfl
  · rw [if_neg fun heq => hkey (Prod.mk.inj heq), if_neg hkey]

theorem add_total (e : EarningsStorage) (share : Share) (provider : Address) :
    (e.add share).total provider = if provider = share.provider then
      saturatingAdd (e.total provider) share.amount else e.total provider := by
  unfold EarningsStorage.add EarningsStorage.total
  dsimp only
  rw [Store.lookup_insert_eq]
  split
  · rename_i hkey
    rw [hkey]
    rfl
  · rfl

theorem add_firstDay (e : EarningsStorage) (share : Share) (provider : Address) :
    (e.add share).firstDay.lookup provider = if provider = share.provider then
      some ((e.firstDay.lookup provider).getD share.day) else e.firstDay.lookup provider := by
  unfold EarningsStorage.add
  dsimp only
  by_cases hkey : provider = share.provider
  · rw [if_pos hkey, ← hkey]
    cases hfirst : e.firstDay.lookup provider with
    | none =>
      rw [Option.isSome_none, if_neg Bool.false_ne_true, Store.lookup_insert_eq, if_pos rfl]
      rfl
    | some day =>
      rw [Option.isSome_some, if_pos rfl]
      exact hfirst
  · rw [if_neg hkey]
    split
    · rfl
    · rw [Store.lookup_insert_eq, if_neg hkey]

/-- A share is recorded. -/
theorem EarningsStorage.Records.add (h : e.Records log) (hnew : 0 < share.amount) :
    (e.add share).Records (log ++ [share]) where
  positive s hs := by
    rcases List.mem_append.mp hs with hs | hs
    · exact h.positive s hs
    · rw [List.mem_singleton.mp hs]
      exact hnew
  first p := by
    rw [add_firstDay, sharesOf_append, h.first p]
    by_cases hp : share.provider = p
    · rw [if_pos hp.symm, sharesOf_same hp]
      cases sharesOf p log <;> rfl
    · rw [if_neg (Ne.symm hp), sharesOf_other hp, append_nil]
  daily p hmax day := by
    rw [sharesOf_append] at hmax ⊢
    rw [add_dailyShares]
    by_cases hp : share.provider = p
    · rw [sharesOf_same hp, total_append] at hmax
      have hold : Dated.total (sharesOf p log) + share.amount ≤ i128Max := by
        simpa [Dated.total] using hmax
      have hnonneg : ∀ entry ∈ sharesOf p log, 0 ≤ entry.2 := h.nonneg
      have hbucket := within_nonneg (a := day) (b := day + 1) hnonneg
      have hpart := within_le_total (a := day) (b := day + 1) hnonneg
      rw [sharesOf_same hp, within_append, within_cons, within_nil, h.daily p (by omega) day]
      dsimp only
      by_cases hday : day = share.day
      · rw [if_pos ⟨hp.symm, hday⟩, if_pos (by omega), saturatingAdd_part hbucket hnew.le (by omega), add_zero]
      · rw [if_neg fun hkey => hday hkey.2, if_neg (by omega), add_zero, add_zero]
    · rw [sharesOf_other hp, append_nil] at hmax ⊢
      rw [if_neg fun hkey => hp hkey.1.symm, h.daily p hmax day]
  total p hmax := by
    rw [sharesOf_append] at hmax ⊢
    rw [add_total]
    by_cases hp : share.provider = p
    · rw [sharesOf_same hp, total_append] at hmax ⊢
      have hone : Dated.total [(share.day, share.amount)] = share.amount := add_zero _
      rw [hone] at hmax ⊢
      have hnonneg : 0 ≤ Dated.total (sharesOf p log) := sum_nonneg (List.forall_mem_map.mpr h.nonneg)
      rw [if_pos hp.symm, h.total p (by omega), saturatingAdd_part hnonneg hnew.le hmax]
    · rw [sharesOf_other hp, append_nil] at hmax ⊢
      rw [if_neg (Ne.symm hp), h.total p hmax]

theorem EarningsStorage.Records.addAll (h : e.Records log) {new : List Share}
    (hnew : ∀ share ∈ new, 0 < share.amount) : (new.foldl .add e).Records (log ++ new) := by
  induction new generalizing e log with
  | nil =>
    rw [append_nil]
    exact h
  | cons share new ih =>
    have hshare := h.add (hnew share mem_cons_self)
    rw [foldl_cons, append_cons]
    exact ih hshare fun s hs => hnew s (mem_cons_of_mem _ hs)

end Records

/-! ## Runs with their log -/

section Runs

variable (T : Tokens τ) (contract : Address)

/-- The shares that an event records. -/
def eventShares (w : World τ) : Event τ → List Share
  | .call auth oracle c => if (invoke ⟨T, oracle, contract, auth⟩ c w).1.isOk = true then c.shares w else []
  | .advance _ | .external _ | .evict _ => []

/-- A step, with the log of the shares. -/
structure Recording (p : World τ × List Share) (ev : Event τ) (p' : World τ × List Share) : Prop where
  step : Step T contract p.1 ev p'.1
  log : p'.2 = p.2 ++ eventShares T contract p.1 ev

/-- What the log is of the earnings: their record, in the order of the days. -/
structure Logged (p : World τ × List Share) : Prop where
  records : p.1.store.earnings.Records p.2
  past : ∀ share ∈ p.2, share.day ≤ currentDay p.1
  ordered : p.2.Pairwise (·.day ≤ ·.day)

/-- The history of a provider. -/
def snapshot (provider : Address) (p : World τ × List Share) : Snapshot Int := ⟨currentDay p.1, sharesOf provider p.2⟩

variable {T contract} {p p' : World τ × List Share} {ev : Event τ} {provider : Address}

/-- A step adds shares of the day to the log and to the earnings, and time does not go back. -/
theorem Recording.adds (h : Recording T contract p ev p') :
    ∃ new, p'.2 = p.2 ++ new ∧ p'.1.store.earnings = new.foldl .add p.1.store.earnings ∧
      (∀ share ∈ new, 0 < share.amount ∧ share.day = currentDay p.1) ∧ currentDay p.1 ≤ currentDay p'.1 := by
  obtain ⟨w', log'⟩ := p'
  obtain ⟨⟨hallowed, rfl⟩, rfl⟩ := h
  refine ⟨eventShares T contract p.1 ev, rfl, ?_⟩
  cases ev with
  | call auth oracle c =>
    rcases hr : invoke ⟨T, oracle, contract, auth⟩ c p.1 with ⟨r, w'⟩
    cases r with
    | ok u =>
      have hledger := ((invoke_writes _ c).of_run hr).ledger
      obtain ⟨hearnings, hnew⟩ := earnings_of_call hr
      have hshares : eventShares T contract p.1 (.call auth oracle c) = c.shares p.1 := by
        rw [eventShares, hr]
        rfl
      have hnext : next T contract p.1 (.call auth oracle c) = w' := Tx.exec_of_ok hr
      rw [hshares, hnext]
      refine ⟨hearnings, hnew, ?_⟩
      unfold currentDay
      rw [hledger]
    | error e =>
      have hshares : eventShares T contract p.1 (.call auth oracle c) = [] := by
        rw [eventShares, hr]
        rfl
      have hnext : next T contract p.1 (.call auth oracle c) = p.1 := Tx.exec_of_error hr
      rw [hshares, hnext]
      exact ⟨rfl, fun _ hshare => absurd hshare not_mem_nil, le_refl _⟩
  | advance =>
    exact ⟨rfl, fun _ hshare => absurd hshare not_mem_nil, Nat.div_le_div_right hallowed.1⟩
  | external => exact ⟨rfl, fun _ hshare => absurd hshare not_mem_nil, le_refl _⟩
  | evict => exact ⟨rfl, fun _ hshare => absurd hshare not_mem_nil, le_refl _⟩

theorem Logged.step (h : Logged p) (hs : Recording T contract p ev p') : Logged p' := by
  obtain ⟨new, hlog, hearnings, hnew, htime⟩ := hs.adds
  refine ⟨?_, ?_, ?_⟩
  · rw [hlog, hearnings]
    exact h.records.addAll fun share hshare => (hnew share hshare).1
  · rw [hlog]
    intro share hshare
    rcases List.mem_append.mp hshare with hshare | hshare
    · exact (h.past share hshare).trans htime
    · exact (hnew share hshare).2.le.trans htime
  · rw [hlog, pairwise_append]
    refine ⟨h.ordered, pairwise_of_forall_mem_list ?_, ?_⟩
    · intro share hshare share' hshare'
      rw [(hnew share hshare).2, (hnew share' hshare').2]
    · intro share hshare share' hshare'
      rw [(hnew share' hshare').2]
      exact h.past share hshare

theorem Logged.deployed (ledger : Ledger) (token : τ) : Logged (World.deployed ledger token, []) where
  records :=
    { positive := fun _ hshare => absurd hshare not_mem_nil
      first := fun _ => rfl
      daily := fun _ _ _ => rfl
      total := fun _ _ => rfl }
  past _ hshare := absurd hshare not_mem_nil
  ordered := .nil

theorem Recording.before (h : Recording T contract p ev p') :
    (snapshot provider p).Before (snapshot provider p') := by
  obtain ⟨new, hlog, -, hnew, htime⟩ := h.adds
  refine ⟨htime, sharesOf provider new, ?_, fun entry hentry => ?_⟩
  · unfold snapshot
    rw [hlog, sharesOf_append]
  · obtain ⟨share, hshare, hday, -⟩ := sharesOf_mem hentry
    rw [← hday]
    exact (hnew share hshare).2.ge

theorem before_of_reaches (h : Reaches (Recording T contract) p p') :
    (snapshot provider p).Before (snapshot provider p') :=
  h.invariant (I := fun q => (snapshot provider p).Before (snapshot provider q)) (.refl _)
    fun _ _ _ hI hs => hI.trans hs.before

end Runs

end CallStake.FeeCollector
