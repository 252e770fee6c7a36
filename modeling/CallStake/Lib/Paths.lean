import Mathlib.Data.Finset.Card
import Mathlib.Data.List.Chain

/-!
# Searches for paths

Breadth-first search with a queue of paths takes the first path of the queue. Unless the path is too long or has
arrived, the vertices next to its end that were not visited are marked, and the paths to them join the queue.

* `Walk`: the paths from the start, with where they end.
* `SearchLoop`: the runs of the search; `SearchLoop.unique`: there is at most one result.
* `expand_eq`: what joins the queue. `unvisited_expand`: what bounds the number of rounds.
* `SearchInv`: the invariant of the rounds. `SearchLoop.shortest`: the search finds a shortest walk of at most
  `limit` vertices if there is one.

Depth-first search goes from the current vertex to every neighbour that is not on the path yet, until it arrives or
has no steps left; a vertex is taken from the visited ones when the search returns from it.

* `simplePaths`: the vertices after the current one, for every path that is found.
* `mem_simplePaths`: these are the simple paths with at most that many steps.
-/

namespace CallStake

open List

/-! ## Breadth-first search -/

section BreadthFirst

variable {α : Type}

/-- A list of neighbours that starts in `start` and ends in a vertex. -/
inductive Walk (adj : α → List α) (start : α) : List α → α → Prop where
  | nil : Walk adj start [start] start
  | snoc {path : List α} {u v : α} (h : Walk adj start path u) (hv : v ∈ adj u) : Walk adj start (path ++ [v]) v

section Search

variable [DecidableEq α]

/-- A path to a vertex that was not visited joins the queue. -/
def enqueue (path : List α) (st : List (List α) × List α) (next : α) : List (List α) × List α :=
  if next ∈ st.2 then st else (st.1 ++ [path ++ [next]], next :: st.2)

/-- The queue and the visited vertices after the neighbours of the end of a path. -/
def expand (path next : List α) (queue : List (List α)) (visited : List α) : List (List α) × List α :=
  next.foldl (enqueue path) (queue, visited)

/-- `while !queue.is_empty() { .. }`. -/
inductive SearchLoop (adj : α → List α) (target : α) (limit : Nat) :
    List (List α) → List α → Option (List α) → Prop where
  | empty {visited} : SearchLoop adj target limit [] visited none
  | tooLong {path queue visited result} (hlen : limit < path.length)
      (hrest : SearchLoop adj target limit queue visited result) :
      SearchLoop adj target limit (path :: queue) visited result
  | found {path queue visited} (hlen : path.length ≤ limit) (hlast : path.getLast? = some target) :
      SearchLoop adj target limit (path :: queue) visited (some path)
  | explore {path queue visited result current} (hlen : path.length ≤ limit)
      (hlast : path.getLast? = some current) (hne : current ≠ target)
      (hrest : SearchLoop adj target limit (expand path (adj current) queue visited).1
        (expand path (adj current) queue visited).2 result) :
      SearchLoop adj target limit (path :: queue) visited result

/-- A shortest walk to the target if one has at most `limit` vertices, and nothing otherwise. -/
def ShortestWithin (adj : α → List α) (start target : α) (limit : Nat) : Option (List α) → Prop
  | some path => Walk adj start path target ∧ path.length ≤ limit ∧
      ∀ other, Walk adj start other target → path.length ≤ other.length
  | none => ∀ other, Walk adj start other target → limit < other.length

/-- The vertices of `all` that were not visited. -/
def unvisited (all visited : List α) : Nat := (all.toFinset \ visited.toFinset).card

variable {adj : α → List α} {start target v : α} {limit : Nat} {path next visited : List α}
  {queue : List (List α)} {result result' : Option (List α)}

section Walks

omit [DecidableEq α]

theorem Walk.getLast?_eq (h : Walk adj start path v) : path.getLast? = some v := by
  cases h with
  | nil => rfl
  | snoc => rw [List.getLast?_append, List.getLast?_singleton, Option.some_or]

theorem Walk.length_pos (h : Walk adj start path v) : 0 < path.length := by
  cases h with
  | nil => exact Nat.one_pos
  | snoc => simp

/-- A walk ends in one vertex. -/
theorem Walk.end_unique {u : α} (h : Walk adj start path v) (h' : Walk adj start path u) : v = u :=
  Option.some.inj (h.getLast?_eq.symm.trans h'.getLast?_eq)

end Walks

theorem SearchLoop.unique (h : SearchLoop adj target limit queue visited result)
    (h' : SearchLoop adj target limit queue visited result') : result = result' := by
  induction h generalizing result' with
  | empty =>
    cases h'
    rfl
  | tooLong _ _ ih =>
    cases h' with
    | tooLong _ hrest => exact ih hrest
    | found => omega
    | explore => omega
  | found _ hlast =>
    cases h' with
    | tooLong => omega
    | found => rfl
    | explore _ hlast' hne => exact absurd (Option.some.inj (hlast'.symm.trans hlast)) hne
  | explore _ hlast hne _ ih =>
    cases h' with
    | tooLong => omega
    | found _ hlast' => exact absurd (Option.some.inj (hlast.symm.trans hlast')) hne
    | explore _ hlast' _ hrest =>
      obtain rfl := Option.some.inj (hlast.symm.trans hlast')
      exact ih hrest

/-- The neighbours that were not visited, once each. -/
theorem expand_eq (path next : List α) (queue : List (List α)) (visited : List α) : ∃ fresh : List α,
    expand path next queue visited = (queue ++ fresh.map fun v => path ++ [v], fresh.reverse ++ visited) ∧
    fresh.Nodup ∧ (∀ v ∈ fresh, v ∈ next ∧ v ∉ visited) ∧ ∀ v ∈ next, v ∈ visited ∨ v ∈ fresh := by
  unfold expand
  induction next generalizing queue visited with
  | nil => exact ⟨[], by simp, nodup_nil, fun v hv => absurd hv not_mem_nil, fun v hv => by cases hv⟩
  | cons u next ih =>
    rw [foldl_cons, enqueue]
    dsimp only
    split
    · rename_i hu
      obtain ⟨fresh, heq, hnodup, hfresh, hall⟩ := ih queue visited
      refine ⟨fresh, heq, hnodup, fun v hv => ⟨mem_cons_of_mem u (hfresh v hv).1, (hfresh v hv).2⟩, ?_⟩
      exact List.forall_mem_cons.mpr ⟨.inl hu, hall⟩
    · rename_i hu
      obtain ⟨fresh, heq, hnodup, hfresh, hall⟩ := ih (queue ++ [path ++ [u]]) (u :: visited)
      refine ⟨u :: fresh, ?_, ?_, ?_, ?_⟩
      · rw [heq]
        simp
      · exact List.nodup_cons.mpr ⟨fun hmem => (hfresh u hmem).2 mem_cons_self, hnodup⟩
      · refine List.forall_mem_cons.mpr ⟨⟨mem_cons_self, hu⟩, fun v hv => ?_⟩
        exact ⟨mem_cons_of_mem u (hfresh v hv).1, fun hmem => (hfresh v hv).2 (mem_cons_of_mem u hmem)⟩
      · refine List.forall_mem_cons.mpr ⟨.inr mem_cons_self, fun v hv => ?_⟩
        rcases hall v hv with hmem | hmem
        · rcases List.mem_cons.mp hmem with rfl | hmem
          · exact .inr mem_cons_self
          · exact .inl hmem
        · exact .inr (mem_cons_of_mem u hmem)

theorem expand_ne_nil (path next visited : List α) (h : ∀ p ∈ queue, p ≠ []) :
    ∀ p ∈ (expand path next queue visited).1, p ≠ [] := by
  obtain ⟨fresh, heq, -⟩ := expand_eq path next queue visited
  rw [heq]
  intro p hp
  rcases List.mem_append.mp hp with hp | hp
  · exact h p hp
  · obtain ⟨v, -, rfl⟩ := List.mem_map.mp hp
    exact concat_ne_nil v path

/-- What joins the queue was not visited before. -/
theorem unvisited_expand {all : List α} (path : List α) (queue : List (List α)) (visited : List α)
    (hall : ∀ v ∈ next, v ∈ all) :
    (expand path next queue visited).1.length + unvisited all (expand path next queue visited).2 ≤
      queue.length + unvisited all visited := by
  obtain ⟨fresh, heq, hnodup, hfresh, -⟩ := expand_eq path next queue visited
  have hsub : fresh.toFinset ⊆ all.toFinset \ visited.toFinset := by
    intro v hv
    obtain ⟨hv, hnew⟩ := hfresh v (List.mem_toFinset.mp hv)
    exact Finset.mem_sdiff.mpr ⟨List.mem_toFinset.mpr (hall v hv), fun h => hnew (List.mem_toFinset.mp h)⟩
  have hrest : all.toFinset \ (fresh.reverse ++ visited).toFinset =
      (all.toFinset \ visited.toFinset) \ fresh.toFinset := by
    rw [toFinset_append, toFinset_reverse, sdiff_sdiff, sup_comm]
    rfl
  have hcard := Finset.card_sdiff_add_card_eq_card hsub
  rw [toFinset_card_of_nodup hnodup] at hcard
  rw [heq, unvisited, unvisited, hrest]
  dsimp only
  rw [length_append, length_map]
  omega

/-- Between the rounds: the queue holds shortest walks in order of length, what has been visited is in the queue or
has been explored, and what is no further away than the first path has been visited. -/
structure SearchInv (adj : α → List α) (start target : α) (queue : List (List α)) (visited : List α) : Prop where
  start_mem : start ∈ visited
  walk : ∀ path ∈ queue, ∃ v, Walk adj start path v
  shortest : ∀ path ∈ queue, ∀ v other, Walk adj start path v → Walk adj start other v → path.length ≤ other.length
  sorted : queue.Pairwise fun a b => a.length ≤ b.length ∧ b.length ≤ a.length + 1
  explored : ∀ v ∈ visited, (∃ path ∈ queue, Walk adj start path v) ∨ (v ≠ target ∧ ∀ u ∈ adj v, u ∈ visited)
  levels : ∀ path, queue.head? = some path → ∀ other v, Walk adj start other v → other.length ≤ path.length →
    v ∈ visited

theorem searchInv_start (adj : α → List α) (start target : α) : SearchInv adj start target [[start]] [start] where
  start_mem := mem_singleton_self start
  walk := by
    intro path hpath
    obtain rfl := List.mem_singleton.mp hpath
    exact ⟨start, .nil⟩
  shortest := by
    intro path hpath v other _ hother
    obtain rfl := List.mem_singleton.mp hpath
    exact hother.length_pos
  sorted := pairwise_singleton _ _
  explored := by
    intro v hv
    obtain rfl := List.mem_singleton.mp hv
    exact .inl ⟨[v], mem_singleton_self [v], .nil⟩
  levels := by
    intro path hpath other v hother hlen
    obtain rfl : [start] = path := Option.some.inj hpath
    cases hother with
    | nil => exact mem_singleton_self _
    | snoc hwalk =>
      have hpos := hwalk.length_pos
      rw [length_append, length_singleton, length_singleton] at hlen
      omega

section Round

variable {current : α}

/-- What has been visited but does not wait in the queue has been explored. -/
theorem SearchInv.next_mem (h : SearchInv adj start target queue visited) {other : List α} {u : α}
    (hu : u ∈ visited) (hwalk : Walk adj start other u) (hfar : ∀ path ∈ queue, other.length < path.length) :
    u ≠ target ∧ ∀ v ∈ adj u, v ∈ visited := by
  rcases h.explored u hu with ⟨path, hpath, hend⟩ | hclosed
  · have hle := h.shortest path hpath u other hend hwalk
    have hlt := hfar path hpath
    omega
  · exact hclosed

/-- With an empty queue everything that can be reached has been explored. -/
theorem SearchInv.unreachable (h : SearchInv adj start target [] visited) {other : List α}
    (hwalk : Walk adj start other v) : v ∈ visited ∧ v ≠ target := by
  induction hwalk with
  | nil => exact ⟨h.start_mem, (h.next_mem h.start_mem .nil fun _ hp => absurd hp not_mem_nil).1⟩
  | snoc hwalk hv ih =>
    have hmem := (h.next_mem ih.1 hwalk fun _ hp => absurd hp not_mem_nil).2 _ hv
    exact ⟨hmem, (h.next_mem hmem (.snoc hwalk hv) fun _ hp => absurd hp not_mem_nil).1⟩

/-- When the first path is too long, so is every walk to the target. -/
theorem SearchInv.far (h : SearchInv adj start target (path :: queue) visited) (hlen : limit < path.length)
    {other : List α} (hwalk : Walk adj start other target) : limit < other.length := by
  by_contra hshort
  have hmem := h.levels path rfl other target hwalk (by omega)
  have hfar : ∀ p ∈ path :: queue, other.length < p.length := by
    refine List.forall_mem_cons.mpr ⟨by omega, fun p hp => ?_⟩
    have hle := ((List.pairwise_cons.mp h.sorted).1 p hp).1
    omega
  exact (h.next_mem hmem hwalk hfar).1 rfl

/-- The queue after a round in which `fresh` was marked. -/
def joined (path : List α) (queue : List (List α)) (fresh : List α) : List (List α) :=
  queue ++ fresh.map fun v => path ++ [v]

section Joined

variable {fresh : List α}

omit [DecidableEq α]

theorem mem_joined {p : List α} : p ∈ joined path queue fresh ↔
    p ∈ queue ∨ ∃ v ∈ fresh, p = path ++ [v] := by
  rw [joined, mem_append, mem_map]
  simp only [eq_comm]

theorem SearchInv.walk_joined (h : SearchInv adj start target (path :: queue) visited)
    (hpath : Walk adj start path current) (hfresh : ∀ v ∈ fresh, v ∈ adj current) :
    ∀ p ∈ joined path queue fresh, ∃ v, Walk adj start p v := by
  intro p hp
  rcases mem_joined.mp hp with hp | ⟨v, hv, rfl⟩
  · exact h.walk p (mem_cons_of_mem path hp)
  · exact ⟨v, hpath.snoc (hfresh v hv)⟩

/-- A shorter walk to a vertex that has just been marked would have marked it already. -/
theorem SearchInv.shortest_joined (h : SearchInv adj start target (path :: queue) visited)
    (hpath : Walk adj start path current) (hfresh : ∀ v ∈ fresh, v ∈ adj current ∧ v ∉ visited) :
    ∀ p ∈ joined path queue fresh, ∀ v other, Walk adj start p v → Walk adj start other v →
      p.length ≤ other.length := by
  intro p hp v other hend hother
  rcases mem_joined.mp hp with hp | ⟨u, hu, rfl⟩
  · exact h.shortest p (mem_cons_of_mem path hp) v other hend hother
  · obtain rfl := (hpath.snoc (hfresh u hu).1).end_unique hend
    rw [length_append, length_singleton]
    by_contra hshort
    exact (hfresh u hu).2 (h.levels path rfl other u hother (by omega))

theorem SearchInv.sorted_joined (h : SearchInv adj start target (path :: queue) visited) :
    (joined path queue fresh).Pairwise fun a b => a.length ≤ b.length ∧ b.length ≤ a.length + 1 := by
  obtain ⟨hhead, hsorted⟩ := List.pairwise_cons.mp h.sorted
  refine List.pairwise_append.mpr ⟨hsorted, ?_, ?_⟩
  · refine List.pairwise_map.mpr (pairwise_of_forall fun a b => ?_)
    simp only [length_append, length_singleton]
    omega
  · intro a ha b hb
    obtain ⟨v, -, rfl⟩ := List.mem_map.mp hb
    have hle := hhead a ha
    rw [length_append, length_singleton]
    omega

theorem SearchInv.length_le_joined (h : SearchInv adj start target (path :: queue) visited) :
    ∀ p ∈ joined path queue fresh, p.length ≤ path.length + 1 := by
  intro p hp
  rcases mem_joined.mp hp with hp | ⟨v, -, rfl⟩
  · exact ((List.pairwise_cons.mp h.sorted).1 p hp).2
  · rw [length_append, length_singleton]

/-- The path that was taken from the queue is explored now: all vertices next to its end are marked. -/
theorem SearchInv.explored_joined (h : SearchInv adj start target (path :: queue) visited)
    (hpath : Walk adj start path current) (hne : current ≠ target) (hfresh : ∀ v ∈ fresh, v ∈ adj current)
    (hall : ∀ v ∈ adj current, v ∈ visited ∨ v ∈ fresh) :
    ∀ v ∈ fresh.reverse ++ visited, (∃ p ∈ joined path queue fresh, Walk adj start p v) ∨
      (v ≠ target ∧ ∀ u ∈ adj v, u ∈ fresh.reverse ++ visited) := by
  intro v hv
  rcases List.mem_append.mp hv with hv | hv
  · have hv' := List.mem_reverse.mp hv
    exact .inl ⟨path ++ [v], mem_joined.mpr (.inr ⟨v, hv', rfl⟩), hpath.snoc (hfresh v hv')⟩
  · rcases h.explored v hv with ⟨p, hp, hend⟩ | ⟨hv', hadj⟩
    · rcases List.mem_cons.mp hp with rfl | hp
      · obtain rfl := hpath.end_unique hend
        refine .inr ⟨hne, fun u hu => ?_⟩
        rcases hall u hu with hmem | hmem
        · exact mem_append_right _ hmem
        · exact mem_append_left _ (List.mem_reverse.mpr hmem)
      · exact .inl ⟨p, mem_joined.mpr (.inl hp), hend⟩
    · exact .inr ⟨hv', fun u hu => mem_append_right _ (hadj u hu)⟩

end Joined

/-- A round of the search keeps the invariant. -/
theorem SearchInv.explore (h : SearchInv adj start target (path :: queue) visited)
    (hlast : path.getLast? = some current) (hne : current ≠ target) :
    SearchInv adj start target (expand path (adj current) queue visited).1
      (expand path (adj current) queue visited).2 := by
  obtain ⟨fresh, heq, -, hfresh, hall⟩ := expand_eq path (adj current) queue visited
  obtain ⟨v, hpath⟩ := h.walk path mem_cons_self
  obtain rfl : v = current := Option.some.inj (hpath.getLast?_eq.symm.trans hlast)
  have hnext : ∀ u ∈ fresh, u ∈ adj v := fun u hu => (hfresh u hu).1
  have hgrow {u : α} (hu : u ∈ visited) : u ∈ fresh.reverse ++ visited := mem_append_right _ hu
  have hshortest := h.shortest_joined hpath hfresh
  have hsorted : (joined path queue fresh).Pairwise _ := h.sorted_joined
  have hexplored := h.explored_joined hpath hne hnext hall
  rw [heq]
  refine ⟨hgrow h.start_mem, h.walk_joined hpath hnext, hshortest, hsorted, hexplored, ?_⟩
  intro p hp other u hother hlen
  have hbound := h.length_le_joined p (mem_of_mem_head? hp)
  by_cases hlevel : other.length ≤ path.length
  · exact hgrow (h.levels path rfl other u hother hlevel)
  · -- the first level is used up, so the vertex before the last has been explored
    cases hother with
    | nil => exact hgrow h.start_mem
    | snoc hwalk hu =>
      rw [length_append, length_singleton] at hlen hlevel
      have hmem := hgrow (h.levels path rfl _ _ hwalk (by omega))
      rcases hexplored _ hmem with ⟨q, hq, hend⟩ | ⟨-, hadj⟩
      · have hle := hshortest q hq _ _ hend hwalk
        obtain ⟨rest, hqueue⟩ := List.head?_eq_some_iff.mp hp
        have hfirst : p.length ≤ q.length := by
          change joined path queue fresh = p :: rest at hqueue
          rw [hqueue] at hq hsorted
          rcases List.mem_cons.mp hq with rfl | hq
          · exact Nat.le_refl _
          · exact ((List.pairwise_cons.mp hsorted).1 q hq).1
        omega
      · exact hadj _ hu

end Round

/-- Paths that are too long are dropped. -/
theorem SearchLoop.of_tooLong (h : SearchLoop adj target limit queue visited result)
    (hlong : ∀ path ∈ queue, limit < path.length) : result = none := by
  induction h with
  | empty => rfl
  | tooLong _ _ ih => exact ih fun path hpath => hlong path (mem_cons_of_mem _ hpath)
  | found =>
    have hlt := hlong _ mem_cons_self
    omega
  | explore =>
    have hlt := hlong _ mem_cons_self
    omega

theorem SearchLoop.shortestWithin (h : SearchLoop adj target limit queue visited result)
    (hinv : SearchInv adj start target queue visited) : ShortestWithin adj start target limit result := by
  induction h with
  | empty =>
    intro other hother
    exact absurd rfl (hinv.unreachable hother).2
  | tooLong hlen hrest =>
    have hlong := fun path hpath => Nat.lt_of_lt_of_le hlen ((List.pairwise_cons.mp hinv.sorted).1 path hpath).1
    rw [hrest.of_tooLong hlong]
    intro other hother
    exact hinv.far hlen hother
  | found hlen hlast =>
    obtain ⟨v, hwalk⟩ := hinv.walk _ mem_cons_self
    obtain rfl := Option.some.inj (hwalk.getLast?_eq.symm.trans hlast)
    exact ⟨hwalk, hlen, fun other hother => hinv.shortest _ mem_cons_self _ other hwalk hother⟩
  | explore _ hlast hne _ ih => exact ih (hinv.explore hlast hne)

/-- The search from the start alone. -/
theorem SearchLoop.shortest (h : SearchLoop adj target limit [[start]] [start] result) :
    ShortestWithin adj start target limit result := h.shortestWithin (searchInv_start adj start target)

end Search

end BreadthFirst

/-! ## Depth-first search -/

section DepthFirst

variable {α : Type} [DecidableEq α]

/-- The paths from `current` to `target`, without their first vertex. -/
def simplePaths (adj : α → List α) (target : α) : Nat → α → List α → List (List α)
  | 0, _, _ => []
  | steps + 1, current, visited =>
    (adj current).flatMap fun next =>
      if next ∈ visited then []
      else if next = target then [[next]]
      else (simplePaths adj target steps next (next :: visited)).map (next :: ·)

variable {adj : α → List α} {target current v : α} {steps : Nat} {visited l rest : List α}

/-- A path that is found starts with a step to a new vertex, and has arrived or goes on from there. -/
theorem cons_mem_simplePaths : v :: rest ∈ simplePaths adj target (steps + 1) current visited ↔
    v ∈ adj current ∧ v ∉ visited ∧
      (v = target ∧ rest = [] ∨ v ≠ target ∧ rest ∈ simplePaths adj target steps v (v :: visited)) := by
  rw [simplePaths, mem_flatMap]
  constructor
  · rintro ⟨next, hnext, hmem⟩
    split at hmem
    · cases hmem
    · rename_i hnew
      split at hmem
      · rename_i harrived
        obtain ⟨rfl, rfl⟩ := List.cons.inj (List.mem_singleton.mp hmem)
        exact ⟨hnext, hnew, .inl ⟨harrived, rfl⟩⟩
      · rename_i hother
        obtain ⟨l, hl, heq⟩ := List.mem_map.mp hmem
        obtain ⟨rfl, rfl⟩ := List.cons.inj heq
        exact ⟨hnext, hnew, .inr ⟨hother, hl⟩⟩
  · rintro ⟨hnext, hnew, h⟩
    refine ⟨v, hnext, ?_⟩
    rw [if_neg hnew]
    rcases h with ⟨harrived, rfl⟩ | ⟨hother, hrest⟩
    · rw [if_pos harrived]
      exact mem_singleton_self [v]
    · rw [if_neg hother]
      exact mem_map_of_mem hrest

theorem nil_notMem_simplePaths : [] ∉ simplePaths adj target steps current visited := by
  cases steps with
  | zero => exact not_mem_nil
  | succ steps =>
    rw [simplePaths, mem_flatMap]
    rintro ⟨next, -, hmem⟩
    split at hmem
    · cases hmem
    · split at hmem
      · exact absurd (List.mem_singleton.mp hmem) (cons_ne_nil next []).symm
      · obtain ⟨l, -, heq⟩ := List.mem_map.mp hmem
        cases heq

/-- The search finds the paths to the target that visit no vertex twice and have at most `steps` steps. -/
theorem mem_simplePaths : l ∈ simplePaths adj target steps current visited ↔
    l.length ≤ steps ∧ List.IsChain (fun a b => b ∈ adj a) (current :: l) ∧ l.getLast? = some target ∧
      l.Nodup ∧ ∀ v ∈ l, v ∉ visited := by
  -- a path is its first vertex and a path from there, with one step less
  induction steps generalizing current visited l with
  | zero =>
    constructor
    · intro h
      cases h
    · rintro ⟨hlen, -, hlast, -⟩
      obtain rfl := eq_nil_of_length_eq_zero (Nat.le_zero.mp hlen)
      cases hlast
  | succ steps ih =>
    cases l with
    | nil =>
      refine iff_of_false nil_notMem_simplePaths ?_
      rintro ⟨-, -, hlast, -⟩
      cases hlast
    | cons v rest =>
      rw [cons_mem_simplePaths, isChain_cons_cons, nodup_cons, forall_mem_cons, length_cons]
      cases rest with
      | nil =>
        constructor
        · rintro ⟨hnext, hnew, ⟨rfl, -⟩ | ⟨-, hrest⟩⟩
          · exact ⟨by simp, ⟨hnext, .singleton v⟩, rfl, ⟨not_mem_nil, nodup_nil⟩, hnew,
              fun u hu => absurd hu not_mem_nil⟩
          · exact absurd hrest nil_notMem_simplePaths
        · rintro ⟨-, ⟨hnext, -⟩, hlast, -, hnew, -⟩
          exact ⟨hnext, hnew, .inl ⟨Option.some.inj hlast, rfl⟩⟩
      | cons u rest =>
        rw [ih, List.getLast?_cons_cons]
        constructor
        · rintro ⟨hnext, hnew, ⟨-, hnil⟩ | ⟨-, hlen, hchain, hlast, hnodup, hfresh⟩⟩
          · cases hnil
          · refine ⟨by omega, ⟨hnext, hchain⟩, hlast, ⟨fun hv => ?_, hnodup⟩, hnew, fun w hw => ?_⟩
            · exact hfresh v hv mem_cons_self
            · exact fun hmem => hfresh w hw (mem_cons_of_mem v hmem)
        · rintro ⟨hlen, ⟨hnext, hchain⟩, hlast, ⟨hv, hnodup⟩, hnew, hfresh⟩
          refine ⟨hnext, hnew, .inr ⟨?_, by omega, hchain, hlast, hnodup, fun w hw hmem => ?_⟩⟩
          · rintro rfl
            exact hv (mem_of_getLast? hlast)
          · rcases List.mem_cons.mp hmem with rfl | hmem
            · exact hv hw
            · exact hfresh w hw hmem

end DepthFirst

end CallStake
