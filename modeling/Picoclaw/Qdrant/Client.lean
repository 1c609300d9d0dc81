import Picoclaw.Memory.Search

/-!
# The Qdrant client (`pkg/qdrant`, `Client`)

`Store` upserts one point: the record's id, its vector, and its payload converted value by value
with `qdrant.NewValueMap` (`newValueMap`). `Search` sends one `QueryPoints` request
(`queryPoints`): the collection, `uint64(limit)` and `uint64(offset)`, the payload, a filter that
`Must` match each string-valued entry of the filter map (other entries are skipped), and the query
vector; it reads each answered point's score and converts its payload back with
`convertPayload`.

The Qdrant server is not in the repository. The model keeps of it what the client relies on: a
server holds collections, each a map from point id to point; an upsert replaces the point of its
id (`upsertRecord`); and a query is answered with points of the collection that pass the filter,
at most `limit` of them, in an order the server chooses (`Answers`), as an approximate
nearest-neighbour search may. A collection that `ArchiveSession` stores into exists, since it
calls `EnsureCollection` before its first store.

**The laws.**
- `convertPayload_newValueMap`: a payload of scalars comes back from the server as it was sent,
  whatever its keys, with each `int` widened to `int64` (the format's round trip); so every
  payload archival stores comes back with its fields, the index and count as `int64`s
  (`convertPayload_chunkPayload`).
- `queryPoints_workspaceFilter`: the manager's filter `{"workspace_id": id}` makes the request
  `Must` match `workspace_id` against the id: its one entry is a string, so it is not skipped.
- `search_workspaceAnswers`: a `Search` that Qdrant serves answers a query of the manager's
  filter only with points of the collection whose payload holds the workspace's id.

**Where it stops**: the filter keeps string values only, so a filter map without one sends no
filter at all (`queryPoints_must_of_no_string`).
-/

namespace Picoclaw.Qdrant

open Picoclaw.Go Picoclaw.Memory

/-! ## Payloads -/

/-- `qdrant.Value`, by the kinds `convertPayload` tells apart; a list or struct value is kept as
the text `v.String()` gives of it. -/
inductive Value where
  | null
  | bool (b : Bool)
  | integer (n : Int)
  | double (f : Float64)
  | string (s : String)
  | composite (text : String)
  deriving DecidableEq

/-- `qdrant.NewValue` of a Go value: an `int` and an `int64` both become an `IntegerValue`;
`protoText` is the text of the list or struct value a slice or a map becomes. -/
def newValue (protoText : Any → String) : Any → Value
  | .null => .null
  | .bool b => .bool b
  | .int n | .int64 n => .integer n
  | .float64 f => .double f
  | .string s => .string s
  | v => .composite (protoText v)

/-- `qdrant.NewValueMap`. -/
def newValueMap (protoText : Any → String) (m : GoMap String Any) : GoMap String Value :=
  m.mapValues (newValue protoText)

/-- One value of `convertPayload`: each kind to the Go value it holds (an `IntegerValue` holds an
`int64`), and any other to its text. -/
def convertValue : Value → Any
  | .string s => .string s
  | .double f => .float64 f
  | .integer n => .int64 n
  | .bool b => .bool b
  | .null => .null
  | .composite text => .string text

/-- `convertPayload`. -/
def convertPayload (p : GoMap String Value) : GoMap String Any := p.mapValues convertValue

/-- A Go value `NewValue` keeps as a scalar: not a slice or a map. -/
def scalar : Any → Bool
  | .slice _ | .map _ => false
  | _ => true

/-- The Go value a scalar comes back as: an `int` as the `int64` of the same value, any other as
it was. -/
def widenInt : Any → Any
  | .int n => .int64 n
  | v => v

theorem convertValue_newValue (protoText : Any → String) :
    ∀ v : Any, scalar v → convertValue (newValue protoText v) = widenInt v
  | .null, _ | .bool _, _ | .int _, _ | .int64 _, _ | .float64 _, _ | .string _, _ => rfl

/-- **A payload of scalars comes back as it was sent**, each `int` widened to `int64`. -/
theorem convertPayload_newValueMap (protoText : Any → String) (m : GoMap String Any)
    (hm : ∀ v ∈ m.values, scalar v) :
    convertPayload (newValueMap protoText m) = m.mapValues widenInt := by
  obtain ⟨entries, nodup⟩ := m
  simp only [convertPayload, newValueMap, GoMap.mapValues, GoMap.mk.injEq, List.map_map]
  exact List.map_congr_left fun e he => by
    simp [convertValue_newValue protoText e.2 (hm e.2 (List.mem_map_of_mem _ he))]

/-- The payload `ArchiveSession` stores for a chunk: `map[string]interface{}` of its six fields,
the timestamp an `int64` (`timestamp / int64(time.Second)`) and the index and count `int`s. -/
def chunkPayloadMap (p : ChunkPayload) : GoMap String Any :=
  GoMap.ofList [("workspace_id", .string p.workspaceID), ("session_id", .string p.sessionID),
    ("content", .string p.content), ("timestamp", .int64 p.timestamp),
    ("chunk_index", .int p.chunkIndex), ("total_chunks", .int p.totalChunks)]

/-- The payload a stored chunk comes back with: its six fields, the timestamp, index and count
all `int64`s. -/
def chunkAnswerMap (p : ChunkPayload) : GoMap String Any :=
  GoMap.ofList [("workspace_id", .string p.workspaceID), ("session_id", .string p.sessionID),
    ("content", .string p.content), ("timestamp", .int64 p.timestamp),
    ("chunk_index", .int64 p.chunkIndex), ("total_chunks", .int64 p.totalChunks)]

/-- **A stored chunk's payload comes back as archival built it**: the workspace, session and
content as strings, and the timestamp, index and count as `int64`s. -/
theorem convertPayload_chunkPayload (protoText : Any → String) (p : ChunkPayload) :
    convertPayload (newValueMap protoText (chunkPayloadMap p)) = chunkAnswerMap p := by
  rw [convertPayload_newValueMap]
  · rfl
  · simp [chunkPayloadMap, GoMap.ofList, GoMap.values, GoMap.set, GoMap.upsert, scalar]

/-! ## The server -/

/-- A point of a collection. -/
structure Point where
  id : String
  vector : List Float
  payload : GoMap String Value

/-- The collections of a Qdrant server, by name. -/
abbrev Collections := GoMap String (GoMap String Point)

/-- The point `Store` upserts for a record. -/
def pointOf (protoText : Any → String) (r : VectorRecord) : Point :=
  ⟨r.id, r.vector, newValueMap protoText (chunkPayloadMap r.payload)⟩

/-- The server after `Store(collection, record)`: the record's point replaces any point of its
id. -/
def upsertRecord (protoText : Any → String) (s : Collections) (collection : String)
    (r : VectorRecord) : Collections :=
  s.set collection (((s.get? collection).getD GoMap.empty).set r.id (pointOf protoText r))

/-- `qdrant.NewMatch(key, keyword)`. -/
structure Match where
  key : String
  keyword : String
  deriving DecidableEq, Repr

/-- The `QueryPoints` request `Search` sends; `must` is the filter, `none` for no filter. -/
structure QueryPoints where
  collectionName : String
  limit : Nat
  offset : Nat
  must : Option (List Match)
  query : List Float
  withPayload : Bool

/-- A point passes a filter when its payload holds each keyword under its key. -/
def passes (must : Option (List Match)) (p : Point) : Bool :=
  match must with
  | none => true
  | some conds => conds.all fun c => p.payload.get? c.key = some (.string c.keyword)

/-- What the server may answer a query with, on the points of its collection: points of the
collection that pass the filter, at most `limit` of them, in any order. -/
structure Answers (pts : GoMap String Point) (q : QueryPoints) (answer : List Point) : Prop where
  length_le : answer.length ≤ q.limit
  stored : ∀ p ∈ answer, pts.get? p.id = some p
  passes : ∀ p ∈ answer, passes q.must p = true

/-- `query` is served by Qdrant over the collections `s`: each answer it gives is points, with
their scores, the server may answer the request with. -/
def Serves (s : Collections) (query : QueryPoints → Except String (List (Point × Float))) : Prop :=
  ∀ q resp, query q = .ok resp →
    ∃ pts, s.get? q.collectionName = some pts ∧ Answers pts q (resp.map Prod.fst)

/-- A server that answers each query exactly: the collection's points that pass the filter, in
storage order, cut at the limit, each with score 0. -/
def exactQuery (s : Collections) (q : QueryPoints) : Except String (List (Point × Float)) :=
  match s.get? q.collectionName with
  | none => .error "collection not found"
  | some pts => .ok (((pts.values.filter (passes q.must)).take q.limit).map fun p => (p, 0))

/-- The exact server is a Qdrant server, on collections whose points are stored under their
ids. -/
theorem exactQuery_serves (s : Collections)
    (hid : ∀ collection pts id p, s.get? collection = some pts → pts.get? id = some p → p.id = id) :
    Serves s (exactQuery s) := by
  intro q resp h
  unfold exactQuery at h
  split at h
  · cases h
  · next pts hpts =>
    cases h
    refine ⟨pts, hpts, ?_⟩
    simp only [List.map_map, Function.comp_def, List.map_id']
    refine ⟨List.length_take_le _ _, fun p hp => ?_, fun p hp => ?_⟩
    · obtain ⟨id, hget⟩ := (pts.mem_values_iff).mp (List.mem_filter.mp (List.mem_of_mem_take hp)).1
      rwa [hid _ _ _ _ hpts hget]
    · exact (List.mem_filter.mp (List.mem_of_mem_take hp)).2

/-! ## `Search` -/

/-- `uint64(x)` of an `int`. -/
def toUInt64 (x : Int) : Nat := (x % 2 ^ 64).toNat

/-- The `Must` conditions of `Search`: one `NewMatch` per string-valued filter entry, in the map's
iteration order. -/
def mustOf (filters : GoMap String Any) : List Match :=
  filters.entries.filterMap fun
    | (k, .string s) => some ⟨k, s⟩
    | _ => none

/-- The request `Search` sends. -/
def queryPoints (collection : String) (vector : List Float) (limit offset : Int)
    (filters : GoMap String Any) : QueryPoints :=
  { collectionName := collection, limit := toUInt64 limit, offset := toUInt64 offset,
    must := if filters.entries.length > 0 then
        if (mustOf filters).length > 0 then some (mustOf filters) else none
      else none,
    query := vector, withPayload := true }

/-- `(*Client).Search`, with `query` the server's answers to a request: the points with their
scores, or the error's text. -/
def search (query : QueryPoints → Except String (List (Point × Float))) (collection : String)
    (vector : List Float) (limit offset : Int) (filters : GoMap String Any) :
    Except String (List ScoredResult) :=
  match query (queryPoints collection vector limit offset filters) with
  | .error e => .error ("failed to query points: " ++ e)
  | .ok resp => .ok (resp.map fun pr => ⟨pr.2, ⟨convertPayload pr.1.payload⟩⟩)

/-- The manager's filter sends `Must` = one match of `workspace_id` against the workspace. -/
theorem queryPoints_workspaceFilter (collection : String) (vector : List Float)
    (limit offset : Int) (workspaceID : String) :
    (queryPoints collection vector limit offset (workspaceFilter workspaceID)).must =
      some [⟨"workspace_id", workspaceID⟩] := rfl

/-- A filter map with no string value sends no filter. -/
theorem queryPoints_must_of_no_string {filters : GoMap String Any}
    (h : ∀ k s, (k, Any.string s) ∉ filters.entries) (collection : String) (vector : List Float)
    (limit offset : Int) : (queryPoints collection vector limit offset filters).must = none := by
  have hmust : mustOf filters = [] := by
    refine List.filterMap_eq_nil_iff.mpr fun e he => ?_
    obtain ⟨k, v⟩ := e
    cases v <;> first | rfl | exact absurd he (h k _)
  simp [queryPoints, hmust]

/-- What a served `Search` answers to a query filtered by a workspace: points stored in the
collection whose payload holds the workspace's id, converted. -/
def FromWorkspace (s : Collections) (workspaceID : String) (r : ScoredResult) : Prop :=
  ∃ collection pts p, s.get? collection = some pts ∧ pts.get? p.id = some p ∧
    p.payload.get? "workspace_id" = some (.string workspaceID) ∧
    r.result.payload = convertPayload p.payload

/-- **A served `Search` answers the manager's filter only with the workspace's points.** -/
theorem search_workspaceAnswers {s : Collections}
    {query : QueryPoints → Except String (List (Point × Float))} (hserve : Serves s query) :
    WorkspaceAnswers (FromWorkspace s) (search query) := by
  intro collection vector limit offset workspaceID L hL r hr
  unfold search at hL
  split at hL
  · cases hL
  · next resp hresp =>
    cases hL
    obtain ⟨⟨p, score⟩, hp, rfl⟩ := List.mem_map.mp hr
    obtain ⟨pts, hpts, hans⟩ := hserve _ _ hresp
    have hpass := hans.passes p (List.mem_map_of_mem _ hp)
    simp only [queryPoints_workspaceFilter, passes, List.all_cons, List.all_nil, Bool.and_true,
      decide_eq_true_eq] at hpass
    exact ⟨_, pts, p, hpts, hans.stored p (List.mem_map_of_mem _ hp), hpass, rfl⟩

end Picoclaw.Qdrant
