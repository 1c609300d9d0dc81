import Picoclaw.Go.Json
import Picoclaw.Memory.Archive

/-!
# Search (`pkg/memory`, `(*Manager).Search` and `SearchByDate`)

`SearchByDate` asks the vector store for `max(limit × 10, 50)` results by similarity, sorts them
by the payload's `"timestamp"` with `sortResultsByDate`, and keeps the first `limit`. The store's
`Search` is a collaborator outside this repository; the model takes its answers as a parameter
`search`, beside the `VectorDB` of `Archive`, which records the two calls archival makes.

`sortResultsByDate` is an insertion sort in place. Its inner loop moves `results[i]` left
while the element before it is strictly out of order. The model renders the loop on the
sorted prefix held in reverse, last element first, so that the element before `results[j]` is
the head of a list (`sinkByDate`); the outer loop is a fold over the results.

**The laws.**
- `sortResultsByDate_isStableSort`: the sort returns a permutation of its input, sorted by
  timestamp (ascending for `"asc"`, descending otherwise), in which the results of each
  timestamp keep their input order. Such a list is unique (`IsStableSortByDate.unique`).
- `searchByDate_returns_stable_sort`: for a limit `≥ 0`, whatever list `L` the store returns,
  `SearchByDate` returns the first `limit` results of the stable sort of `L`.

`Search` embeds the query and asks the store for `limit` results from `offset`, in the store's
order. Both searches answer only results the store answered (`search_mem`, `searchByDate_mem`),
which is how a property of every stored result reaches the tools.

A float64 timestamp is converted as `int64(v)` does (`Float64.toInt64`).
-/

namespace Picoclaw.Memory

open Picoclaw.Go

/-- An `int` product, wrapped to 64 bits. -/
def wrapInt64 (x : Int) : Int := (x + 2 ^ 63) % 2 ^ 64 - 2 ^ 63

/-- `memory.SearchResult`, by its payload; `ID` and `Score` are read by nothing modelled. -/
structure SearchResult where
  payload : GoMap String Any

/-- `getTS` in `sortResultsByDate`: an `int64` or `int` timestamp as it is, a float64 one
converted, anything else 0. -/
def getTS (r : SearchResult) : Int :=
  match r.payload.get? "timestamp" with
  | some (.int64 n) => n
  | some (.float64 f) => f.toInt64
  | some (.int n) => n
  | _ => 0

/-- The inner loop's swap test on `a`, the timestamp of `results[j-1]`, and `b`, that of
`results[j]`. -/
def outOfOrder (order : String) (a b : Int) : Bool :=
  if order = "asc" then b < a else a < b

/-- The inner loop for `r = results[i]`, on the sorted prefix `results[:i]` held in reverse:
`r` moves left past each element it is out of order with and stops at the first it is not. -/
def sinkByDate (order : String) (r : SearchResult) : List SearchResult → List SearchResult
  | [] => [r]
  | p :: rest => if outOfOrder order (getTS p) (getTS r) then p :: sinkByDate order r rest
    else r :: p :: rest

/-- `sortResultsByDate`: the outer loop runs the inner one for `i = 1, 2, …`. -/
def sortResultsByDate (results : List SearchResult) (order : String) : List SearchResult :=
  (results.foldl (fun rev r => sinkByDate order r rev) []).reverse

/-! ## The sort is a stable sort -/

/-- The order `SearchByDate` promises: by timestamp, ascending for `"asc"` and descending
otherwise. -/
def InDateOrder (order : String) (a b : SearchResult) : Prop :=
  if order = "asc" then getTS a ≤ getTS b else getTS b ≤ getTS a

/-- `S` is `L` sorted stably by date: a permutation of `L`, in date order, in which the results
of each timestamp come in their order in `L`. -/
structure IsStableSortByDate (order : String) (L S : List SearchResult) : Prop where
  perm : S.Perm L
  sorted : S.Pairwise (InDateOrder order)
  stable : ∀ t, S.filter (getTS · = t) = L.filter (getTS · = t)

section Order

variable {order : String} {a b c : SearchResult}

theorem InDateOrder.trans (hab : InDateOrder order a b) (hbc : InDateOrder order b c) :
    InDateOrder order a c := by
  unfold InDateOrder at *
  split_ifs at * <;> omega

theorem InDateOrder.refl : InDateOrder order a a := by
  unfold InDateOrder
  split_ifs <;> exact le_refl _

/-- The head of a list in date order is in order with every member. -/
theorem InDateOrder.head {A : List SearchResult} (h : (a :: A).Pairwise (InDateOrder order))
    (hb : b ∈ a :: A) : InDateOrder order a b := by
  rcases List.mem_cons.mp hb with rfl | hb
  · exact .refl
  · exact List.rel_of_pairwise_cons h hb

theorem inDateOrder_of_not_outOfOrder (h : outOfOrder order (getTS a) (getTS b) = false) :
    InDateOrder order a b := by
  unfold outOfOrder InDateOrder at *
  split_ifs at * <;> simp only [decide_eq_false_iff_not] at h <;> omega

/-- A swapped pair is in order the other way round, with distinct timestamps. -/
theorem inDateOrder_of_outOfOrder (h : outOfOrder order (getTS a) (getTS b) = true) :
    InDateOrder order b a ∧ getTS a ≠ getTS b := by
  unfold outOfOrder InDateOrder at *
  split_ifs at * <;> simp only [decide_eq_true_eq] at h <;> omega

end Order

theorem sinkByDate_perm (order : String) (r : SearchResult) :
    ∀ rev, (sinkByDate order r rev).Perm (r :: rev)
  | [] => .refl _
  | p :: rest => by
    unfold sinkByDate
    split
    · exact ((sinkByDate_perm order r rest).cons p).trans (.swap r p rest)
    · exact .refl _

/-- The inner loop keeps the reversed prefix sorted. -/
theorem sinkByDate_sorted (order : String) (r : SearchResult) :
    ∀ rev, rev.Pairwise (fun a b => InDateOrder order b a) →
      (sinkByDate order r rev).Pairwise (fun a b => InDateOrder order b a)
  | [], _ => List.pairwise_singleton _ _
  | p :: rest, h => by
    rw [List.pairwise_cons] at h
    unfold sinkByDate
    split
    · next hout =>
      refine List.pairwise_cons.mpr ⟨fun q hq => ?_, sinkByDate_sorted order r rest h.2⟩
      rcases List.mem_cons.mp ((sinkByDate_perm order r rest).subset hq) with rfl | hq
      · exact (inDateOrder_of_outOfOrder hout).1
      · exact h.1 q hq
    · next hout =>
      have hpr := inDateOrder_of_not_outOfOrder (Bool.eq_false_iff.mpr hout)
      refine List.pairwise_cons.mpr ⟨fun q hq => ?_, List.pairwise_cons.mpr h⟩
      rcases List.mem_cons.mp hq with rfl | hq
      · exact hpr
      · exact (h.1 q hq).trans hpr

/-- The inner loop never moves a result past one with the same timestamp. -/
theorem sinkByDate_filter (order : String) (r : SearchResult) (t : Int) :
    ∀ rev, (sinkByDate order r rev).filter (getTS · = t) = (r :: rev).filter (getTS · = t)
  | [] => rfl
  | p :: rest => by
    unfold sinkByDate
    split
    · next hout =>
      have hne := (inDateOrder_of_outOfOrder hout).2
      rw [List.filter_cons, sinkByDate_filter order r t rest]
      by_cases hp : getTS p = t
      · have hr : getTS r ≠ t := fun hr => hne (hp.trans hr.symm)
        simp [List.filter_cons, hp, hr]
      · simp [List.filter_cons, hp]
    · rfl

section Fold

variable (order : String)

/-- The outer loop, from a reversed prefix `rev`. -/
def sortFrom (rev L : List SearchResult) : List SearchResult :=
  L.foldl (fun rev r => sinkByDate order r rev) rev

theorem sortFrom_perm : ∀ (L rev : List SearchResult), (sortFrom order rev L).Perm (L.reverse ++ rev)
  | [], _ => .refl _
  | r :: L, rev => by
    refine (sortFrom_perm L (sinkByDate order r rev)).trans ?_
    simpa using (sinkByDate_perm order r rev).append_left L.reverse

theorem sortFrom_sorted : ∀ (L rev : List SearchResult),
    rev.Pairwise (fun a b => InDateOrder order b a) →
      (sortFrom order rev L).Pairwise (fun a b => InDateOrder order b a)
  | [], _, h => h
  | r :: L, rev, h => sortFrom_sorted L _ (sinkByDate_sorted order r rev h)

theorem sortFrom_filter (t : Int) : ∀ (L rev : List SearchResult),
    (sortFrom order rev L).filter (getTS · = t) = (L.reverse ++ rev).filter (getTS · = t)
  | [], _ => rfl
  | r :: L, rev => by
    rw [sortFrom, List.foldl_cons, ← sortFrom, sortFrom_filter t L, List.filter_append,
      sinkByDate_filter, List.reverse_cons, List.append_assoc, List.filter_append]
    rfl

end Fold

/-- **The insertion sort is a stable sort by date.** -/
theorem sortResultsByDate_isStableSort (L : List SearchResult) (order : String) :
    IsStableSortByDate order L (sortResultsByDate L order) where
  perm := (List.reverse_perm _).trans ((sortFrom_perm order L []).trans (by simp))
  sorted := List.pairwise_reverse.mpr (sortFrom_sorted order L [] List.Pairwise.nil)
  stable t := by
    rw [sortResultsByDate, List.filter_reverse, ← sortFrom, sortFrom_filter, List.append_nil,
      List.filter_reverse, List.reverse_reverse]

/-- **A stable sort by date is unique**: two of the same list are equal. The heads of two such
lists have the same timestamp, since each is in date order with the other's head, and they are
the first results of that timestamp in both. -/
theorem IsStableSortByDate.unique {order : String} {L : List SearchResult} :
    ∀ {S S' : List SearchResult}, IsStableSortByDate order L S → IsStableSortByDate order L S' →
      S = S'
  | [], _, h, h' => (h'.perm.trans h.perm.symm).eq_nil.symm
  | _ :: _, [], h, h' => (h.perm.trans h'.perm.symm).eq_nil
  | a :: A, b :: B, h, h' => by
    have hba : InDateOrder order a b :=
      InDateOrder.head h.sorted ((h'.perm.trans h.perm.symm).subset (List.mem_cons_self b B))
    have hab : InDateOrder order b a :=
      InDateOrder.head h'.sorted ((h.perm.trans h'.perm.symm).subset (List.mem_cons_self a A))
    have hts : getTS b = getTS a := by unfold InDateOrder at hab hba; split_ifs at * <;> omega
    have hfilter := (h'.stable (getTS a)).trans (h.stable (getTS a)).symm
    rw [List.filter_cons_of_pos (by simp [hts]), List.filter_cons_of_pos (by simp)] at hfilter
    have hhead : b = a := (List.cons.inj hfilter).1
    rw [hhead] at h'
    have htail : IsStableSortByDate order A B :=
      ⟨(h'.perm.trans h.perm.symm).cons_inv, (List.pairwise_cons.mp h'.sorted).2, fun t => by
        have := (h'.stable t).trans (h.stable t).symm
        by_cases ht : getTS a = t <;> simpa [List.filter_cons, ht] using this⟩
    rw [hhead, IsStableSortByDate.unique ⟨.refl A, (List.pairwise_cons.mp h.sorted).2, fun _ => rfl⟩
      htail]

/-! ## `SearchByDate` -/

/-- The collection the manager uses: the configured one, or `"picoclaw"`. -/
def Manager.collection (m : Manager) : String :=
  if m.config.collectionName = "" then "picoclaw" else m.config.collectionName

/-- `candidates` in `SearchByDate`: ten times the limit in 64-bit arithmetic, at least 50. -/
def candidateCount (limit : Int) : Int :=
  let candidates := wrapInt64 (limit * 10)
  if candidates < 50 then 50 else candidates

/-- The filter `SearchByDate` passes: `{"workspace_id": workspaceID}`. -/
def workspaceFilter (workspaceID : String) : GoMap String Any :=
  GoMap.empty.set "workspace_id" (.string workspaceID)

/-- `s[:h]` of a slice whose capacity is its length. -/
def sliceTo {α : Type} (s : List α) (h : Int) : Outcome (List α) :=
  if h < 0 then .panics ("runtime error: slice bounds out of range [:" ++ formatInt h ++ "]")
  else if s.length < h then
    .panics ("runtime error: slice bounds out of range [:" ++ formatInt h ++ "] with capacity " ++
      formatInt s.length)
  else .returns (s.take h.toNat)

/-- `(*Manager).SearchByDate`, with `search` the answers of the vector store's `Search`. A
manager that is not active answers nil. -/
def Manager.searchByDate (m : Manager)
    (search : String → List Float → Int → Int → GoMap String Any → Except String (List SearchResult))
    (workspaceID query : String) (limit : Int) (order : String) :
    Outcome (Except String (List SearchResult)) :=
  match m.config.enabled, m.db, m.embedder with
  | true, some _, some embedder =>
    match embedder.embed query with
    | .error e => .returns (.error ("failed to generate embedding: " ++ e))
    | .ok vector =>
      match search m.collection vector (candidateCount limit) 0 (workspaceFilter workspaceID) with
      | .error e => .returns (.error ("failed to search in vector db: " ++ e))
      | .ok results =>
        let results := sortResultsByDate results order
        if limit < results.length then (sliceTo results limit).bind fun r => .returns (.ok r)
        else .returns (.ok results)
  | _, _, _ => .returns (.ok [])

/-- What an active manager's `SearchByDate` does once the store has answered `L`. -/
theorem searchByDate_of_search {m : Manager} {search : String → List Float → Int → Int →
      GoMap String Any → Except String (List SearchResult)}
    {workspaceID query : String} {limit : Int} {order : String} {embedder : Embedder}
    {vector : List Float} {L : List SearchResult} (hactive : m.active = true)
    (hemb : m.embedder = some embedder) (hembed : embedder.embed query = .ok vector)
    (hsearch : search m.collection vector (candidateCount limit) 0 (workspaceFilter workspaceID) =
      .ok L) :
    m.searchByDate search workspaceID query limit order =
      if limit < (sortResultsByDate L order).length then
        (sliceTo (sortResultsByDate L order) limit).bind fun r => .returns (.ok r)
      else .returns (.ok (sortResultsByDate L order)) := by
  obtain ⟨henabled, hdb⟩ : m.config.enabled = true ∧ m.db.isSome = true := by
    simpa [Manager.active, hemb] using hactive
  obtain ⟨db, hdb⟩ := Option.isSome_iff_exists.mp hdb
  simp only [Manager.searchByDate, henabled, hdb, hemb, hembed, hsearch]

/-- **`SearchByDate` returns the first `limit` results of the stable sort** of what the store
returns, for every limit `≥ 0`. -/
theorem searchByDate_returns_stable_sort (m : Manager)
    (search : String → List Float → Int → Int → GoMap String Any → Except String (List SearchResult))
    (workspaceID query : String) (limit : Int) (order : String) (embedder : Embedder)
    (vector : List Float) (L : List SearchResult) (hlimit : 0 ≤ limit) (hactive : m.active = true)
    (hemb : m.embedder = some embedder) (hembed : embedder.embed query = .ok vector)
    (hsearch : search m.collection vector (candidateCount limit) 0 (workspaceFilter workspaceID) =
      .ok L) :
    (∃ S, IsStableSortByDate order L S) ∧
      ∀ S, IsStableSortByDate order L S →
        m.searchByDate search workspaceID query limit order = .returns (.ok (S.take limit.toNat)) := by
  refine ⟨⟨_, sortResultsByDate_isStableSort L order⟩, fun S hS => ?_⟩
  rw [← (sortResultsByDate_isStableSort L order).unique hS,
    searchByDate_of_search hactive hemb hembed hsearch]
  split_ifs with hlt
  · simp [sliceTo, not_lt.mpr hlimit, not_lt.mpr hlt.le, Outcome.returns_bind]
  · rw [List.take_of_length_le (by omega)]

/-- **When `SearchByDate` panics**: exactly when the manager is active, the query embeds, the
store answers, and the limit is negative; then `results[:limit]` is out of range whatever the
store returned. -/
theorem searchByDate_panics_iff (m : Manager)
    (search : String → List Float → Int → Int → GoMap String Any → Except String (List SearchResult))
    (workspaceID query : String) (limit : Int) (order : String) :
    (∃ reason, m.searchByDate search workspaceID query limit order = .panics reason) ↔
      ∃ embedder vector L, m.active = true ∧ m.embedder = some embedder ∧
        embedder.embed query = .ok vector ∧
        search m.collection vector (candidateCount limit) 0 (workspaceFilter workspaceID) = .ok L ∧
        limit < 0 := by
  constructor
  · rintro ⟨reason, h⟩
    unfold Manager.searchByDate at h
    split at h
    · next db embedder henabled hdb hemb =>
      split at h
      · cases h
      · next vector hembed =>
        split at h
        · cases h
        · next L hsearch =>
          have hactive : m.active = true := by simp [Manager.active, henabled, hdb, hemb]
          refine ⟨embedder, vector, L, hactive, hemb, hembed, hsearch, ?_⟩
          dsimp only at h
          split_ifs at h with hlt
          · unfold sliceTo at h
            split_ifs at h with hneg hover
            · exact hneg
            · omega
            · cases h
    · cases h
  · rintro ⟨embedder, vector, L, hactive, hemb, hembed, hsearch, hneg⟩
    rw [searchByDate_of_search hactive hemb hembed hsearch, if_pos (by omega)]
    simp only [sliceTo, if_pos hneg, Outcome.panics_bind]
    exact ⟨_, rfl⟩

/-! ## `Search`, and what the manager asks the store -/

/-- `memory.SearchResult` with its `Score`, as `memory_search` prints it; its `ID` is read by
nothing modelled. -/
structure ScoredResult where
  score : Float
  result : SearchResult

/-- `(*Manager).Search`, with `search` the answers of the vector store's `Search`: the results are
passed on as the store gave them. A manager that is not active answers nil. -/
def Manager.search {α : Type} (m : Manager)
    (search : String → List Float → Int → Int → GoMap String Any → Except String (List α))
    (workspaceID query : String) (limit offset : Int) : Except String (List α) :=
  match m.config.enabled, m.db, m.embedder with
  | true, some _, some embedder =>
    match embedder.embed query with
    | .error e => .error ("failed to generate embedding for search: " ++ e)
    | .ok vector =>
      match search m.collection vector limit offset (workspaceFilter workspaceID) with
      | .error e => .error ("failed to search in vector db: " ++ e)
      | .ok results => .ok results
  | _, _, _ => .ok []

/-- `P workspaceID r` holds of every result `r` the store answers to a query filtered by
`workspaceID`, whatever the collection, vector, limit and offset. -/
def WorkspaceAnswers {α : Type} (P : String → α → Prop)
    (search : String → List Float → Int → Int → GoMap String Any → Except String (List α)) :
    Prop :=
  ∀ collection vector limit offset workspaceID L,
    search collection vector limit offset (workspaceFilter workspaceID) = .ok L → ∀ r ∈ L, P workspaceID r

/-- **`Search` returns only what the store answered to the workspace's filter.** -/
theorem search_mem {α : Type} {P : String → α → Prop} {search : String → List Float → Int → Int →
      GoMap String Any → Except String (List α)} (hs : WorkspaceAnswers P search) (m : Manager)
    (workspaceID query : String) (limit offset : Int) {results : List α}
    (h : m.search search workspaceID query limit offset = .ok results) :
    ∀ r ∈ results, P workspaceID r := by
  unfold Manager.search at h
  split at h
  · split at h
    · cases h
    · split at h
      · cases h
      · next L hL =>
        cases h
        exact hs _ _ _ _ _ _ hL
  · cases h
    simp

/-- **`SearchByDate` returns only what the store answered to the workspace's filter**: its results
are some of the store's, sorted and cut. -/
theorem searchByDate_mem {P : String → SearchResult → Prop} {search : String → List Float → Int →
      Int → GoMap String Any → Except String (List SearchResult)} (hs : WorkspaceAnswers P search)
    (m : Manager) (workspaceID query : String) (limit : Int) (order : String)
    {results : List SearchResult}
    (h : m.searchByDate search workspaceID query limit order = .returns (.ok results)) :
    ∀ r ∈ results, P workspaceID r := by
  unfold Manager.searchByDate at h
  split at h
  · split at h
    · cases h
    · split at h
      · cases h
      · next L hL =>
        have hsorted : ∀ r ∈ sortResultsByDate L order, P workspaceID r := fun r hr =>
          hs _ _ _ _ _ _ hL r ((sortResultsByDate_isStableSort L order).perm.subset hr)
        dsimp only at h
        split_ifs at h
        · obtain ⟨cut, hcut, hr⟩ := Outcome.bind_eq_returns.mp h
          cases hr
          unfold sliceTo at hcut
          split_ifs at hcut
          cases hcut
          exact fun r hr => hsorted r (List.mem_of_mem_take hr)
        · cases h
          exact hsorted
  · cases h
    simp

/-- A result whose payload holds only the `int64` timestamp `t`. -/
def stampedResult (t : Int) : SearchResult := ⟨GoMap.empty.set "timestamp" (.int64 t)⟩

/-- A store that answers a newer result before an older one. -/
def newerFirstSearch (_ : String) (_ : List Float) (_ _ : Int) (_ : GoMap String Any) :
    Except String (List SearchResult) :=
  .ok [stampedResult 2, stampedResult 1]

/-- Browsing oldest first with limit 1 keeps the older result. -/
theorem searchByDate_oldest_of_two :
    (∃ S, IsStableSortByDate "asc" [stampedResult 2, stampedResult 1] S) ∧
      ∀ S, IsStableSortByDate "asc" [stampedResult 2, stampedResult 1] S →
        acceptingManager.searchByDate newerFirstSearch "w" "q" 1 "asc" = .returns (.ok (S.take 1)) :=
  searchByDate_returns_stable_sort acceptingManager newerFirstSearch "w" "q" 1 "asc" _ [] _
    (by decide) rfl rfl rfl rfl

end Picoclaw.Memory
