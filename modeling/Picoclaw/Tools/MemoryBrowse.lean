import Picoclaw.Memory.Search
import Picoclaw.Tools.Mcp

/-!
# The `memory_browse` and `memory_search` tools (`pkg/tools/memory_browse.go`)

`Execute` reads `"query"` (a string), `"order"` (`"asc"` or `"desc"`, else `"desc"`) and
`"limit"` (a float64, converted by `int(l)`, else 5) from its input, calls
`SearchByDate`, and renders the results, oldest or most recent first. `%q` is
`strconv.Quote`, a parameter `quote`; dates are printed in the `Local` zone, a fixed offset.
The three result constructors are not in the sources and are modelled by the fields the spec
gives a tool result: `SilentResult` marks the result silent, `UserResult` also sends it to the
user, `ErrorResult` sets the error.

**The law** (`browse_panics_iff_negative_limit`): `Execute` panics exactly when the manager is
there and active, the query is non-empty, the embedder and the store answer, and `int(limit)` is
negative. `SearchByDate` then slices `results[:limit]`, whatever the store returned, so an input
`{"query": "x", "limit": -1}` crashes the process (`browse_minus_one_panics`).

`memory_search` reads the same `"query"` and `"limit"`, calls `Search` at offset 0 and lists
the results with their scores. Each tool's text is a fixed message, an error, or a listing of
results the store answered (`memorySearch_lists`, `memoryBrowse_lists`).

A limit is converted as `int(l)` converts a float64 (`Float64.toInt64`): `-0.5` becomes 0,
and does not panic. A JSON input holds no `NaN`.
-/

namespace Picoclaw.Tools

open Picoclaw.Go Picoclaw.Memory

/-- `SilentResult`. -/
def silentResult (forLLM : String) : ToolResult := { forLLM := forLLM, silent := true }

/-- `UserResult`. -/
def userResult (content : String) : ToolResult := { forLLM := content, forUser := content }

/-- `ErrorResult`. -/
def errorResult (message : String) : ToolResult := { forLLM := message, err := some message }

/-- `MemoryBrowseTool`: the manager, `none` when it is nil, and the workspace it browses. -/
structure MemoryBrowseTool where
  manager : Option Manager
  workspaceID : String

/-- `query, _ := input["query"].(string)`. -/
def browseQuery (input : GoMap String Any) : String :=
  match input.get? "query" with
  | some (.string q) => q
  | _ => ""

/-- The order: `input["order"]` when it is `"asc"` or `"desc"`, else `"desc"`. -/
def browseOrder (input : GoMap String Any) : String :=
  match input.get? "order" with
  | some (.string o) => if o = "asc" ∨ o = "desc" then o else "desc"
  | _ => "desc"

/-- The limit: `int(l)` of a float64 `input["limit"]`, else 5. -/
def browseLimit (input : GoMap String Any) : Int :=
  match input.get? "limit" with
  | some (.float64 l) => l.toInt64
  | _ => 5

/-- `formatTimestamp`: a string as it is; an `int64`, `int` or float64 positive count of
seconds as `time.Unix(ts, 0).Format("2006-01-02 15:04:05")`; anything else `"unknown"`. -/
def formatTimestamp (offset : Int) : Option Any → String
  | none | some .null => "unknown"
  | some (.string s) => s
  | some v =>
    let unixTs := match v with
      | .int64 n | .int n => n
      | .float64 f => f.toInt64
      | _ => 0
    if unixTs > 0 then
      let c := civilTime offset unixTs
      appendInt c.year 4 ++ "-" ++ appendInt c.month 2 ++ "-" ++ appendInt c.day 2 ++ " " ++
        appendInt c.hour 2 ++ ":" ++ appendInt c.minute 2 ++ ":" ++ appendInt c.second 2
    else "unknown"

/-- A string field of a payload, `""` when it is missing or not a string. -/
def payloadString (payload : GoMap String Any) (key : String) : String :=
  match payload.get? key with
  | some (.string s) => s
  | _ => ""

/-- The text `Execute` answers with for a non-empty result list. -/
def browseText (quote : String → String) (offset : Int) (query order : String)
    (results : List SearchResult) : String :=
  let direction := if order = "asc" then "oldest first" else "most recent first"
  "Found " ++ formatInt results.length ++ " sessions related to " ++ quote query ++ " (" ++
    direction ++ "):\n\n" ++
  String.join (results.enum.map fun (i, r) =>
    "--- Session " ++ formatInt (i + 1) ++ " (ID: " ++ payloadString r.payload "session_id" ++
      ", Date: " ++ formatTimestamp offset (r.payload.get? "timestamp") ++ ") ---\n" ++
      payloadString r.payload "content" ++ "\n\n")

/-- `(*MemoryBrowseTool).Execute`, with the store's `Search` answers `search`, `strconv.Quote`
and the `Local` zone's offset. -/
def MemoryBrowseTool.execute (t : MemoryBrowseTool)
    (search : String → List Float → Int → Int → GoMap String Any → Except String (List SearchResult))
    (quote : String → String) (offset : Int) (input : GoMap String Any) : Outcome ToolResult :=
  match t.manager with
  | none => .returns (silentResult "Long-term memory is not enabled.")
  | some m =>
    let query := browseQuery input
    if query = "" then .returns (errorResult "query is required for memory_browse")
    else
      let order := browseOrder input
      (m.searchByDate search t.workspaceID query (browseLimit input) order).bind fun
        | .error e => .returns (errorResult ("failed to browse memory: " ++ e))
        | .ok [] => .returns (userResult ("No sessions found related to " ++ quote query ++ "."))
        | .ok results => .returns (userResult (browseText quote offset query order results))

/-- **When `memory_browse` panics**: exactly when a manager is there and active, the query is a
non-empty string, the embedder and the store answer, and `int(limit)` is negative. Nothing
bounds the limit before `SearchByDate` slices with it. -/
theorem browse_panics_iff_negative_limit (t : MemoryBrowseTool)
    (search : String → List Float → Int → Int → GoMap String Any → Except String (List SearchResult))
    (quote : String → String) (offset : Int) (input : GoMap String Any) :
    (∃ reason, t.execute search quote offset input = .panics reason) ↔
      ∃ m embedder vector L, t.manager = some m ∧ m.active = true ∧ m.embedder = some embedder ∧
        browseQuery input ≠ "" ∧ embedder.embed (browseQuery input) = .ok vector ∧
        search m.collection vector (candidateCount (browseLimit input)) 0
          (workspaceFilter t.workspaceID) = .ok L ∧
        browseLimit input < 0 := by
  rcases hm : t.manager with _ | m
  · simp [MemoryBrowseTool.execute, hm]
  · by_cases hq : browseQuery input = ""
    · simp [MemoryBrowseTool.execute, hm, hq]
    · simp only [MemoryBrowseTool.execute, hm, if_neg hq]
      rw [Outcome.bind_panics_iff_of_returns fun r => by rcases r with _ | _ | _ <;> exact ⟨_, rfl⟩,
        searchByDate_panics_iff]
      constructor
      · rintro ⟨embedder, vector, L, hactive, hemb, hembed, hsearch, hneg⟩
        exact ⟨m, embedder, vector, L, rfl, hactive, hemb, hq, hembed, hsearch, hneg⟩
      · rintro ⟨m', embedder, vector, L, hm', hactive, hemb, -, hembed, hsearch, hneg⟩
        cases hm'
        exact ⟨embedder, vector, L, hactive, hemb, hembed, hsearch, hneg⟩


/-! ## The `memory_search` tool -/

/-- `MemorySearchTool`: the manager, `none` when it is nil, and the workspace it searches. -/
structure MemorySearchTool where
  manager : Option Manager
  workspaceID : String

/-- The text `memory_search` answers with for a non-empty result list; `formatScore` is `%.3f`. -/
def searchText (formatScore : Float → String) (offset : Int) (results : List ScoredResult) :
    String :=
  "Found " ++ formatInt results.length ++ " relevant memories:\n\n" ++
  String.join (results.enum.map fun (i, r) =>
    "--- Memory " ++ formatInt (i + 1) ++ " (Session: " ++
      payloadString r.result.payload "session_id" ++ ", Score: " ++ formatScore r.score ++
      ", Date: " ++ formatTimestamp offset (r.result.payload.get? "timestamp") ++ ") ---\n" ++
      payloadString r.result.payload "content" ++ "\n\n")

/-- `(*MemorySearchTool).Execute`, with the store's `Search` answers `search`, `%.3f` and the
`Local` zone's offset. The query and the limit are read as `memory_browse` reads them, and the
offset passed to `Search` is 0. -/
def MemorySearchTool.execute (t : MemorySearchTool)
    (search : String → List Float → Int → Int → GoMap String Any → Except String (List ScoredResult))
    (formatScore : Float → String) (offset : Int) (input : GoMap String Any) : ToolResult :=
  match t.manager with
  | none => silentResult "Long-term memory is not enabled."
  | some m =>
    let query := browseQuery input
    if query = "" then
      errorResult "query is required for memory_search; use memory_browse to list sessions chronologically"
    else
      match m.search search t.workspaceID query (browseLimit input) 0 with
      | .error e => errorResult ("failed to search memory: " ++ e)
      | .ok [] => userResult "No relevant memories found."
      | .ok results => userResult (searchText formatScore offset results)

/-- **`memory_search` lists only what the store answered to its workspace's filter**: its answer
is a fixed text, an error, or the listing of results each of which the store gave for a query
filtered by the tool's workspace. -/
theorem memorySearch_lists {P : String → ScoredResult → Prop} {search : String → List Float →
      Int → Int → GoMap String Any → Except String (List ScoredResult)}
    (hs : WorkspaceAnswers P search) (t : MemorySearchTool) (formatScore : Float → String)
    (offset : Int) (input : GoMap String Any) :
    t.execute search formatScore offset input = silentResult "Long-term memory is not enabled." ∨
      (∃ e, t.execute search formatScore offset input = errorResult e) ∨
      t.execute search formatScore offset input = userResult "No relevant memories found." ∨
      ∃ results, (∀ r ∈ results, P t.workspaceID r) ∧
        t.execute search formatScore offset input = userResult (searchText formatScore offset results) := by
  unfold MemorySearchTool.execute
  split
  · exact .inl rfl
  · next m _ =>
    dsimp only
    split_ifs
    · exact .inr (.inl ⟨_, rfl⟩)
    · split
      · exact .inr (.inl ⟨_, rfl⟩)
      · exact .inr (.inr (.inl rfl))
      · next results _ h =>
        exact .inr (.inr (.inr ⟨results, search_mem hs m _ _ _ _ h, rfl⟩))

/-- **`memory_browse` lists only what the store answered to its workspace's filter**: whatever it
returns is a fixed text, an error, or the listing of results each of which the store gave for a
query filtered by the tool's workspace. -/
theorem memoryBrowse_lists {P : String → SearchResult → Prop} {search : String → List Float →
      Int → Int → GoMap String Any → Except String (List SearchResult)}
    (hs : WorkspaceAnswers P search) (t : MemoryBrowseTool) (quote : String → String)
    (offset : Int) (input : GoMap String Any) {res : ToolResult}
    (h : t.execute search quote offset input = .returns res) :
    res = silentResult "Long-term memory is not enabled." ∨ (∃ e, res = errorResult e) ∨
      (∃ q, res = userResult ("No sessions found related to " ++ quote q ++ ".")) ∨
      ∃ results, (∀ r ∈ results, P t.workspaceID r) ∧
        ∃ q order, res = userResult (browseText quote offset q order results) := by
  unfold MemoryBrowseTool.execute at h
  split at h
  · cases h
    exact .inl rfl
  · next m _ =>
    dsimp only at h
    split_ifs at h
    · cases h
      exact .inr (.inl ⟨_, rfl⟩)
    · obtain ⟨found, hfound, h⟩ := Outcome.bind_eq_returns.mp h
      split at h
      · cases h
        exact .inr (.inl ⟨_, rfl⟩)
      · cases h
        exact .inr (.inr (.inl ⟨_, rfl⟩))
      · cases h
        exact .inr (.inr (.inr ⟨_, searchByDate_mem hs m t.workspaceID _ _ _ hfound, _, _, rfl⟩))

/-- The tool over `acceptingManager`, browsing workspace `"w"`. -/
def acceptingBrowse : MemoryBrowseTool := ⟨some acceptingManager, "w"⟩

/-- The input `{"query": "x", "limit": -1}` as `json.Unmarshal` decodes it. -/
def minusOneInput : GoMap String Any :=
  (GoMap.empty.set "query" (.string "x")).set "limit" (Json.number "-1").toAny

/-- A store that finds nothing. -/
def emptySearch (_ : String) (_ : List Float) (_ _ : Int) (_ : GoMap String Any) :
    Except String (List SearchResult) :=
  .ok []

set_option exponentiation.threshold 2100 in
/-- Browsing with limit `-1` panics at `results[:-1]`, even when the store finds nothing. -/
theorem browse_minus_one_panics :
    (∃ reason, acceptingBrowse.execute emptySearch id 0 minusOneInput = .panics reason) ∧
      acceptingBrowse.execute emptySearch id 0 minusOneInput =
        .panics "runtime error: slice bounds out of range [:-1]" :=
  ⟨(browse_panics_iff_negative_limit acceptingBrowse emptySearch id 0 minusOneInput).mpr
    ⟨acceptingManager, _, [], [], rfl, rfl, rfl, by decide, rfl, rfl, by decide⟩, rfl⟩

end Picoclaw.Tools
