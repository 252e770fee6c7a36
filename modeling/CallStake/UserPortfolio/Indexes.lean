import CallStake.UserPortfolio.Effects

/-!
# The lists of positions

* `Sound`: every user has a list of ids, without repetition and of no other user, and each id has a position.
  `sound_move`: every event keeps it.
* `Exact`: an index that is stored has exactly the ids with its status. `exact_move`: every event keeps it that is
  `Familiar`, which is about an index that is missing when its first id is written.
-/

namespace CallStake.UserPortfolio

open Tx List

/-! ## What is known of an accepted call -/

section Accepted

variable {w : World} {ev : Event}

theorem freeId_eq_some {b : Book} {id : Nat} : b.freeId = some id ↔ b.nextPositionId = some id ∧ id < u64Max := by
  simp [Book.freeId, Option.filter_eq_some_iff]

/-- The opening takes the next id, and its values are positive. -/
theorem openingOf_spec {o : Opening} (h : openingOf w ev = some o) :
    w.store.book.nextPositionId = some o.id ∧ 0 < o.entryPrice ∧ 0 < o.amount := by
  cases ev with
  | advance => cases h
  | call _ c =>
    cases c with
    | openPosition =>
      rw [openingOf] at h
      split at h
      · rename_i hadmits
        obtain ⟨id, hid, rfl⟩ := Option.map_eq_some_iff.mp h
        exact ⟨(freeId_eq_some.mp hid).1, hadmits.2.1, hadmits.2.2.1⟩
      · cases h
    | openPositionWithCapCheck =>
      rw [openingOf] at h
      split at h
      · rename_i hadmits
        obtain ⟨id, hid, rfl⟩ := Option.map_eq_some_iff.mp h
        exact ⟨(freeId_eq_some.mp hid).1, hadmits.1.2.1, hadmits.1.2.2.1⟩
      · cases h
    | _ => cases h

/-- A position that is reduced is an open one of the user. -/
structure Reduction.Meets (r : Reduction) (b : Book) : Prop where
  listed : r.id ∈ b.ids r.user
  stored : b.positions.lookup r.id = some r.pos
  valid : r.pos.Valid
  isOpen : r.pos.status = .open
  fits : r.way.Fits r.pos

theorem reduction_meets {b : Book} {user : Address} {id : Nat} {way : Way} {r : Reduction}
    (h : b.reduction user id way = some r) : r.Meets b := by
  obtain ⟨pos, hpos, hfits, rfl⟩ := reduction_eq_some.mp h
  obtain ⟨hid, hlookup, hvalid, hopen⟩ := openOf_eq_some.mp hpos
  exact ⟨hid, hlookup, hvalid, hopen, hfits⟩

theorem reductionOf_spec {r : Reduction} (h : reductionOf w ev = some r) : r.Meets w.store.book := by
  cases ev with
  | advance => cases h
  | call _ c =>
    cases c with
    | closePosition =>
      rw [reductionOf] at h
      split at h
      · exact reduction_meets h
      · cases h
    | closePositionKeeper =>
      rw [reductionOf] at h
      split at h
      · exact reduction_meets h
      · cases h
    | closePositionPartial =>
      rw [reductionOf] at h
      split at h
      · exact reduction_meets h
      · cases h
    | _ => cases h

/-- It ends closed or open. -/
theorem Way.after_status {pos : Position} (way : Way) :
    (way.after pos).status = .closed ∨ (way.after pos).status = .open := by
  cases way with
  | byUser => exact .inl rfl
  | byKeeper => exact .inl rfl
  | inPart =>
    unfold Way.after
    dsimp only
    split
    · exact .inl rfl
    · exact .inr rfl

end Accepted

/-! ## The book after a move -/

section Book

variable {b : Book} {o : Opening} {r : Reduction} {u : Address} {id : Nat} {s : PositionStatus}

theorem ids_opened : (b.opened o).ids u = if u = o.user then b.ids u ++ [o.id] else b.ids u := by
  unfold Book.opened
  change ((AList.lookup u (b.userPositions.insert o.user (b.ids o.user ++ [o.id]))).getD []) = _
  by_cases hu : u = o.user
  · subst hu
    rw [AList.lookup_insert, if_pos rfl, Option.getD_some]
  · rw [AList.lookup_insert_ne hu, if_neg hu]
    rfl

theorem mem_ids_opened : id ∈ (b.opened o).ids u ↔ id ∈ b.ids u ∨ u = o.user ∧ id = o.id := by
  rw [ids_opened]
  split
  · rename_i hu
    simp [hu]
  · rename_i hu
    simp [hu]

theorem position_opened :
    (b.opened o).positions.lookup id = if id = o.id then some o.position else b.positions.lookup id :=
  Store.lookup_insert_eq b.positions o.id id o.position

theorem ids_reduced : (b.reduced r).ids u = b.ids u := by
  unfold Book.reduced
  split <;> rfl

theorem position_reduced :
    (b.reduced r).positions.lookup id = if id = r.id then some r.after else b.positions.lookup id := by
  rw [← Store.lookup_insert_eq b.positions r.id id r.after]
  unfold Book.reduced
  split <;> rfl

theorem opens_reduced (hclosed : r.after.status = .closed) : (b.reduced r).userOpenPositions.lookup u =
    if u = r.user then some (((b.userOpenPositions.lookup u).getD []).filter (· ≠ r.id))
    else b.userOpenPositions.lookup u := by
  rw [Book.reduced, if_pos hclosed]
  change AList.lookup u (b.userOpenPositions.insert r.user
    (((b.userOpenPositions.lookup r.user).getD []).filter (· ≠ r.id))) = _
  by_cases hu : u = r.user
  · subst hu
    rw [AList.lookup_insert, if_pos rfl]
  · rw [AList.lookup_insert_ne hu, if_neg hu]

theorem closeds_reduced (hclosed : r.after.status = .closed)
    (hnot : r.id ∉ (b.userClosedPositions.lookup r.user).getD []) : (b.reduced r).userClosedPositions.lookup u =
    if u = r.user then some ((b.userClosedPositions.lookup u).getD [] ++ [r.id])
    else b.userClosedPositions.lookup u := by
  rw [Book.reduced, if_pos hclosed]
  change AList.lookup u (if r.id ∈ (b.userClosedPositions.lookup r.user).getD [] then b.userClosedPositions
    else b.userClosedPositions.insert r.user ((b.userClosedPositions.lookup r.user).getD [] ++ [r.id])) = _
  rw [if_neg hnot]
  by_cases hu : u = r.user
  · subst hu
    rw [AList.lookup_insert, if_pos rfl]
  · rw [AList.lookup_insert_ne hu, if_neg hu]

/-- The id is one of the user's, and its position has the status. -/
def Book.Has (b : Book) (u : Address) (s : PositionStatus) (id : Nat) : Prop :=
  id ∈ b.ids u ∧ ∃ pos ∈ b.positions.lookup id, pos.status = s

theorem has_opened (hfresh : o.id ∉ b.ids u) :
    (b.opened o).Has u s id ↔ b.Has u s id ∨ (u = o.user ∧ id = o.id ∧ s = .open) := by
  unfold Book.Has
  rw [mem_ids_opened, position_opened]
  by_cases hid : id = o.id
  · subst hid
    simp [hfresh, Opening.position, eq_comm]
  · simp [hid]

theorem has_reduced (hmeets : r.Meets b) (howner : r.id ∈ b.ids u → u = r.user) :
    (b.reduced r).Has u s id ↔ (id ≠ r.id ∧ b.Has u s id) ∨ (u = r.user ∧ id = r.id ∧ s = r.after.status) := by
  unfold Book.Has
  rw [ids_reduced, position_reduced]
  by_cases hid : id = r.id
  · subst hid
    have hiff : r.id ∈ b.ids u ↔ u = r.user := ⟨howner, fun hu => hu ▸ hmeets.listed⟩
    simp [hiff, eq_comm]
  · simp [hid]

theorem mem_having {p : Position → Bool} {ids : List Nat} :
    id ∈ b.having p ids ↔ id ∈ ids ∧ ∃ pos ∈ b.positions.lookup id, p pos = true := by
  unfold Book.having
  rw [mem_filter]
  cases b.positions.lookup id with
  | none => simp
  | some pos => simp

end Book

/-! ## The lists of all positions -/

structure Sound (w : World) : Prop where
  nodup : ∀ u, (w.store.book.ids u).Nodup
  owner : ∀ u v id, id ∈ w.store.book.ids u → id ∈ w.store.book.ids v → u = v
  stored : ∀ u id, id ∈ w.store.book.ids u → ∃ pos ∈ w.store.book.positions.lookup id, pos.status ≠ .closing
  counted : ∀ u id, id ∈ w.store.book.ids u → ∃ n, w.store.book.nextPositionId = some n ∧ id < n
  started : w.store.config.initialized = false → w.store.book.nextPositionId = none

theorem sound_deployed (ledger : Ledger) : Sound (.deployed ledger) where
  nodup _ := nodup_nil
  owner _ _ _ h := absurd h not_mem_nil
  stored _ _ h := absurd h not_mem_nil
  counted _ _ h := absurd h not_mem_nil
  started _ := rfl

namespace Sound

variable {w : World} {ev : Event}

/-- An id that is not given out yet is in no list. -/
theorem fresh (h : Sound w) {id : Nat} (hnext : w.store.book.nextPositionId = some id) (u : Address) :
    id ∉ w.store.book.ids u := by
  intro hid
  obtain ⟨n, hn, hlt⟩ := h.counted u id hid
  cases hnext.symm.trans hn
  exact lt_irrefl _ hlt

theorem opened (h : Sound w) {o : Opening} (ho : openingOf w ev = some o) : Sound (w.opened o) where
  nodup u := by
    change ((w.store.book.opened o).ids u).Nodup
    rw [ids_opened]
    split
    · exact List.nodup_append.mpr ⟨h.nodup u, nodup_singleton _, fun a ha b hb heq => by
        cases List.mem_singleton.mp hb
        exact h.fresh (openingOf_spec ho).1 u (heq ▸ ha)⟩
    · exact h.nodup u
  owner u v id hu hv := by
    have hfresh := h.fresh (openingOf_spec ho).1
    rcases mem_ids_opened.mp hu with hu | ⟨rfl, rfl⟩ <;> rcases mem_ids_opened.mp hv with hv | ⟨rfl, hid⟩
    · exact h.owner u v id hu hv
    · exact absurd (hid ▸ hu) (hfresh u)
    · exact absurd hv (hfresh v)
    · rfl
  stored u id hu := by
    change ∃ pos ∈ (w.store.book.opened o).positions.lookup id, _
    rw [position_opened]
    rcases mem_ids_opened.mp hu with hu | ⟨rfl, rfl⟩
    · have hne : id ≠ o.id := fun hid => h.fresh (openingOf_spec ho).1 u (hid ▸ hu)
      rw [if_neg hne]
      exact h.stored u id hu
    · rw [if_pos rfl]
      exact ⟨_, rfl, nofun⟩
  counted u id hu := by
    refine ⟨o.id + 1, rfl, ?_⟩
    rcases mem_ids_opened.mp hu with hu | ⟨rfl, rfl⟩
    · obtain ⟨n, hn, hlt⟩ := h.counted u id hu
      cases (openingOf_spec ho).1.symm.trans hn
      omega
    · omega
  started hfirst := by
    have hnone := h.started hfirst
    rw [(openingOf_spec ho).1] at hnone
    cases hnone

theorem reduced (h : Sound w) {r : Reduction} : Sound (w.reduced r) where
  nodup u := by
    change ((w.store.book.reduced r).ids u).Nodup
    rw [ids_reduced]
    exact h.nodup u
  owner u v id hu hv := by
    change id ∈ (w.store.book.reduced r).ids u at hu
    change id ∈ (w.store.book.reduced r).ids v at hv
    rw [ids_reduced] at hu hv
    exact h.owner u v id hu hv
  stored u id hu := by
    change id ∈ (w.store.book.reduced r).ids u at hu
    rw [ids_reduced] at hu
    change ∃ pos ∈ (w.store.book.reduced r).positions.lookup id, _
    rw [position_reduced]
    split
    · refine ⟨_, rfl, ?_⟩
      rcases r.way.after_status with hs | hs <;> exact fun hclosing => by cases hs.symm.trans hclosing
    · exact h.stored u id hu
  counted u id hu := by
    change id ∈ (w.store.book.reduced r).ids u at hu
    rw [ids_reduced] at hu
    have hnext : (w.store.book.reduced r).nextPositionId = w.store.book.nextPositionId := by
      unfold Book.reduced
      split <;> rfl
    change ∃ n, (w.store.book.reduced r).nextPositionId = some n ∧ _
    rw [hnext]
    exact h.counted u id hu
  started hfirst := by
    have hnext : (w.store.book.reduced r).nextPositionId = w.store.book.nextPositionId := by
      unfold Book.reduced
      split <;> rfl
    exact hnext.trans (h.started hfirst)

theorem relisted (h : Sound w) {b : Book} (hb : Relisted w.store.book b) : Sound (w.relisted b) := by
  have hids : ∀ u, b.ids u = w.store.book.ids u := fun u => by
    unfold Book.ids
    rw [hb.userPositions]
  refine ⟨fun u => ?_, fun u v id hu hv => ?_, fun u id hu => ?_, fun u id hu => ?_, fun hfirst => ?_⟩
  · exact (hids u).symm ▸ h.nodup u
  · exact h.owner u v id (hids u ▸ hu) (hids v ▸ hv)
  · obtain ⟨pos, hpos, hstatus⟩ := h.stored u id (hids u ▸ hu)
    exact ⟨pos, (congrArg (·.lookup id) hb.positions).trans hpos, hstatus⟩
  · obtain ⟨n, hn, hlt⟩ := h.counted u id (hids u ▸ hu)
    exact ⟨n, hb.next.trans hn, hlt⟩
  · exact hb.next.trans (h.started hfirst)

/-- Nothing is listed before the contract is initialized. -/
theorem ids_eq_nil (h : Sound w) (hfirst : w.store.config.initialized = false) (u : Address) :
    w.store.book.ids u = [] := by
  refine List.eq_nil_iff_forall_not_mem.mpr fun id hid => ?_
  obtain ⟨n, hn, -⟩ := h.counted u id hid
  rw [h.started hfirst] at hn
  cases hn

theorem initialized (h : Sound w) {admin oracle : Address} (hfirst : w.store.config.initialized = false) :
    Sound (w.started admin oracle) where
  nodup := h.nodup
  owner := h.owner
  stored := h.stored
  counted u id hid := by
    change id ∈ w.store.book.ids u at hid
    rw [h.ids_eq_nil hfirst u] at hid
    cases hid
  started hinit := nomatch hinit

/-- Every event keeps the lists sound. -/
theorem move {w' : World} (h : Sound w) (hmove : Move w ev w') : Sound w' := by
  cases hmove with
  | opened _ ho => exact h.opened ho
  | reduced => exact h.reduced
  | started _ _ hfirst => exact h.initialized hfirst
  | relisted _ hb => exact h.relisted hb
  | sold => exact ⟨h.nodup, h.owner, h.stored, h.counted, h.started⟩
  | aside _ _ _ _ hconfig =>
    exact ⟨h.nodup, h.owner, h.stored, h.counted, fun hfirst => h.started (hconfig.initialized ▸ hfirst)⟩

end Sound

/-! ## The indexes -/

/-- The list has exactly the ids of the user with the status, each once. -/
structure Book.Lists (b : Book) (u : Address) (s : PositionStatus) (l : List Nat) : Prop where
  nodup : l.Nodup
  mem : ∀ id, id ∈ l ↔ b.Has u s id

structure Exact (b : Book) : Prop where
  opens : ∀ u l, b.userOpenPositions.lookup u = some l → b.Lists u .open l
  closeds : ∀ u l, b.userClosedPositions.lookup u = some l → b.Lists u .closed l

/-- The index of the user is stored, or it would be empty without `apart`. -/
def Book.Known (b : Book) (index : Store Address (List Nat)) (u : Address) (s : PositionStatus) (apart : Option Nat) :
    Prop := index.lookup u ≠ none ∨ ∀ id ∈ b.having (·.status = s) (b.ids u), some id = apart

instance (b : Book) (index : Store Address (List Nat)) (u : Address) (s : PositionStatus) (apart : Option Nat) :
    Decidable (b.Known index u s apart) := inferInstanceAs (Decidable (_ ∨ _))

/-- No index is created by a write when there are other ids for it. -/
def Familiar (w : World) (ev : Event) : Prop :=
  (∀ o ∈ openingOf w ev, w.store.book.Known w.store.book.userOpenPositions o.user .open none) ∧
    ∀ r ∈ reductionOf w ev, r.after.status = .closed →
      w.store.book.Known w.store.book.userOpenPositions r.user .open (some r.id) ∧
        w.store.book.Known w.store.book.userClosedPositions r.user .closed none
  deriving Decidable

section Lists

variable {b b' : Book} {u : Address} {s : PositionStatus} {l : List Nat} {index : Store Address (List Nat)}

theorem mem_having_status {id : Nat} : id ∈ b.having (·.status = s) (b.ids u) ↔ b.Has u s id := by
  rw [mem_having]
  simp [Book.Has]

theorem Book.Lists.congr (h : b.Lists u s l) (hiff : ∀ id, b'.Has u s id ↔ b.Has u s id) : b'.Lists u s l :=
  ⟨h.nodup, fun id => (h.mem id).trans (hiff id).symm⟩

/-- What a write finds in the index, and does not take out. -/
theorem Book.Known.lists {apart : Option Nat} (h : b.Known index u s apart)
    (hindex : ∀ l, index.lookup u = some l → b.Lists u s l) :
    ((index.lookup u).getD []).Nodup ∧ ∀ id, some id ≠ apart → (id ∈ (index.lookup u).getD [] ↔ b.Has u s id) := by
  cases hl : index.lookup u with
  | some l => exact ⟨(hindex l hl).nodup, fun id _ => (hindex l hl).mem id⟩
  | none =>
    refine ⟨nodup_nil, fun id hapart => ⟨fun hid => absurd hid not_mem_nil, fun hhas => ?_⟩⟩
    rcases h with hstored | hrest
    · exact absurd hl hstored
    · exact absurd (hrest id (mem_having_status.mpr hhas)) hapart

end Lists

/-- Rebuilt indexes are exact. -/
theorem Sound.lists_split {w : World} (h : Sound w) (u : Address) :
    w.store.book.Lists u .open (w.store.book.split (w.store.book.ids u)).1 ∧
      w.store.book.Lists u .closed (w.store.book.split (w.store.book.ids u)).2 := by
  refine ⟨⟨(h.nodup u).filter _, fun id => mem_having_status⟩, ⟨(h.nodup u).filter _, fun id => ?_⟩⟩
  change id ∈ w.store.book.having _ _ ↔ _
  rw [mem_having]
  refine and_congr_right fun hid => ?_
  obtain ⟨pos, hpos, hclosing⟩ := h.stored u id hid
  rw [Option.mem_def.mp hpos]
  rcases hs : pos.status with _ | _ | _ <;> simp_all

namespace Exact

variable {w w' : World} {ev : Event}

theorem opened (h : Exact w.store.book) (hsound : Sound w) {o : Opening} (ho : openingOf w ev = some o)
    (hknown : w.store.book.Known w.store.book.userOpenPositions o.user .open none) :
    Exact (w.store.book.opened o) where
  opens u l hl := by
    have hfresh := hsound.fresh (openingOf_spec ho).1
    change AList.lookup u (w.store.book.userOpenPositions.insert o.user _) = some l at hl
    by_cases hu : u = o.user
    · subst hu
      rw [AList.lookup_insert, Option.some_inj] at hl
      obtain ⟨hnodup, hmem⟩ := hknown.lists (h.opens o.user)
      subst hl
      refine ⟨?_, fun id => ?_⟩
      · refine List.nodup_append.mpr ⟨hnodup, nodup_singleton _, fun a ha c hc heq => ?_⟩
        cases List.mem_singleton.mp hc
        exact hfresh _ (((hmem a nofun).mp ha).1 |> heq.subst (motive := fun x => x ∈ w.store.book.ids o.user))
      · rw [mem_append, hmem id nofun, mem_singleton, has_opened (hfresh _)]
        simp
    · rw [AList.lookup_insert_ne hu] at hl
      refine (h.opens u l hl).congr fun id => ?_
      rw [has_opened (hfresh u)]
      simp [hu]
  closeds u l hl := by
    refine (h.closeds u l hl).congr fun id => ?_
    rw [has_opened (hsound.fresh (openingOf_spec ho).1 u)]
    simp

section Reduced

variable {r : Reduction}

/-- The position is an open one of its user, and of nobody else. -/
theorem has_before (hsound : Sound w) (hmeets : r.Meets w.store.book) (u : Address) (s : PositionStatus) :
    w.store.book.Has u s r.id ↔ u = r.user ∧ s = .open := by
  constructor
  · rintro ⟨hid, pos, hpos, rfl⟩
    cases hmeets.stored.symm.trans hpos
    exact ⟨hsound.owner u r.user r.id hid hmeets.listed, hmeets.isOpen⟩
  · rintro ⟨rfl, rfl⟩
    exact ⟨hmeets.listed, r.pos, hmeets.stored, hmeets.isOpen⟩

/-- For the other users, and where the status stays, nothing changes. -/
theorem has_kept (hsound : Sound w) (hmeets : r.Meets w.store.book) {u : Address}
    (hu : u ≠ r.user ∨ r.after.status = .open) (s : PositionStatus) (id : Nat) :
    (w.store.book.reduced r).Has u s id ↔ w.store.book.Has u s id := by
  rw [has_reduced hmeets fun hid => hsound.owner u r.user r.id hid hmeets.listed]
  by_cases hid : id = r.id
  · subst hid
    rw [has_before hsound hmeets]
    rcases hu with hu | hopen
    · simp [hu]
    · simp [hopen]
  · simp [hid]

/-- A position that was closed goes from the open index to the closed one. -/
theorem reduced_closed (h : Exact w.store.book) (hsound : Sound w) (hmeets : r.Meets w.store.book)
    (hclosed : r.after.status = .closed)
    (hopens : w.store.book.Known w.store.book.userOpenPositions r.user .open (some r.id))
    (hcloseds : w.store.book.Known w.store.book.userClosedPositions r.user .closed none) :
    Exact (w.store.book.reduced r) := by
  have hhas : ∀ s id, (w.store.book.reduced r).Has r.user s id ↔
      (id ≠ r.id ∧ w.store.book.Has r.user s id) ∨ (r.user = r.user ∧ id = r.id ∧ s = .closed) := fun s id =>
    hclosed ▸ has_reduced hmeets fun hid => hsound.owner r.user r.user r.id hid hmeets.listed
  constructor
  · intro u l hl
    rw [opens_reduced hclosed] at hl
    split at hl
    · rename_i hu
      subst hu
      obtain ⟨hnodup, hmem⟩ := hopens.lists (h.opens r.user)
      rw [Option.some_inj] at hl
      subst hl
      refine ⟨hnodup.filter _, fun id => ?_⟩
      rw [hhas, mem_filter]
      by_cases hid : id = r.id
      · simp [hid]
      · rw [hmem id fun heq => hid (Option.some_inj.mp heq)]
        simp [hid]
    · rename_i hu
      exact (h.opens u l hl).congr (has_kept hsound hmeets (.inl hu) .open)
  · intro u l hl
    obtain ⟨hnodup, hmem⟩ := hcloseds.lists (h.closeds r.user)
    have hnot : r.id ∉ (w.store.book.userClosedPositions.lookup r.user).getD [] := by
      rw [hmem r.id nofun, has_before hsound hmeets]
      exact fun hc => nomatch hc.2
    rw [closeds_reduced hclosed hnot] at hl
    split at hl
    · rename_i hu
      subst hu
      rw [Option.some_inj] at hl
      subst hl
      refine ⟨?_, fun id => ?_⟩
      · refine List.nodup_append.mpr ⟨hnodup, nodup_singleton _, fun a ha c hc heq => ?_⟩
        cases List.mem_singleton.mp hc
        exact hnot (heq ▸ ha)
      · rw [hhas, mem_append, mem_singleton]
        by_cases hid : id = r.id
        · simp [hid]
        · rw [hmem id nofun]
          simp [hid]
    · rename_i hu
      exact (h.closeds u l hl).congr (has_kept hsound hmeets (.inl hu) .closed)

theorem reduced (h : Exact w.store.book) (hsound : Sound w) (hr : reductionOf w ev = some r)
    (hknown : r.after.status = .closed →
      w.store.book.Known w.store.book.userOpenPositions r.user .open (some r.id) ∧
        w.store.book.Known w.store.book.userClosedPositions r.user .closed none) :
    Exact (w.store.book.reduced r) := by
  have hmeets := reductionOf_spec hr
  by_cases hclosed : r.after.status = .closed
  · obtain ⟨hopens, hcloseds⟩ := hknown hclosed
    exact h.reduced_closed hsound hmeets hclosed hopens hcloseds
  · -- it stays open, and no index changes
    have hkept := fun u => has_kept hsound hmeets (u := u) (.inr (r.way.after_status.resolve_left hclosed))
    refine ⟨fun u l hl => ?_, fun u l hl => ?_⟩
    · rw [Book.reduced, if_neg hclosed] at hl
      exact (h.opens u l hl).congr (hkept u .open)
    · rw [Book.reduced, if_neg hclosed] at hl
      exact (h.closeds u l hl).congr (hkept u .closed)

end Reduced

theorem relisted (h : Exact w.store.book) (hsound : Sound w) {b : Book} (hb : Relisted w.store.book b) : Exact b := by
  have hhas : ∀ u s id, b.Has u s id ↔ w.store.book.Has u s id := by
    intro u s id
    unfold Book.Has Book.ids
    rw [hb.positions, hb.userPositions]
  refine ⟨fun u l hl => ?_, fun u l hl => ?_⟩
  · rcases hb.indexes u with heq | heq
    · exact (h.opens u l ((Prod.mk.inj heq).1 ▸ hl)).congr (hhas u .open)
    · rw [(Prod.mk.inj heq).1, Option.some_inj] at hl
      exact hl ▸ (hsound.lists_split u).1.congr (hhas u .open)
  · rcases hb.indexes u with heq | heq
    · exact (h.closeds u l ((Prod.mk.inj heq).2 ▸ hl)).congr (hhas u .closed)
    · rw [(Prod.mk.inj heq).2, Option.some_inj] at hl
      exact hl ▸ (hsound.lists_split u).2.congr (hhas u .closed)

/-- An event that is familiar keeps the indexes exact. -/
theorem move (h : Exact w.store.book) (hsound : Sound w) (hfamiliar : Familiar w ev) (hmove : Move w ev w') :
    Exact w'.store.book := by
  cases hmove with
  | opened o ho => exact h.opened hsound ho (hfamiliar.1 o ho)
  | reduced r hr => exact h.reduced hsound hr (hfamiliar.2 r hr)
  | started =>
    exact ⟨fun u l hl => ⟨(h.opens u l hl).nodup, (h.opens u l hl).mem⟩,
      fun u l hl => ⟨(h.closeds u l hl).nodup, (h.closeds u l hl).mem⟩⟩
  | relisted _ hb => exact h.relisted hsound hb
  | sold => exact h
  | aside => exact h

end Exact

end CallStake.UserPortfolio
