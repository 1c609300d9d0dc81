import Picoclaw.Qdrant.Client
import Picoclaw.Tools.MemoryBrowse

/-!
# Workspaces share one Qdrant server and see only their own memories

Every agent archives its sessions with `ArchiveSession` under its workspace id, and reads them
back with `memory_search` and `memory_browse`, all against one Qdrant server. The model runs any
sequence of archive calls, by any managers, workspaces and sessions, against the server
(`archiveAll`): each record a call stores is upserted as a point, replacing a point of the same
id. The server answers a query as `Answers` allows: in any order, cut anywhere.

**The law** (`memory_tools_show_own_archives`): whatever archive calls ran, and however the
server ranks and cuts its answers, every memory `memory_search` or `memory_browse` of workspace
`w` lists is the payload of a chunk that an archive call of workspace `w` set out to store: its
session, content, time and place in the session, as archival built it. It rests on one fact per
layer:
- the tools list only what the manager's search returned, and the manager filters by its
  workspace (`memorySearch_lists`, `memoryBrowse_lists`);
- a served `Search` answers that filter only with points holding the workspace's id
  (`search_workspaceAnswers`), and their payloads come back as stored
  (`convertPayload_chunkPayload`);
- every point on the server is a planned chunk of some archive call, stored under its id
  (`archived_archiveAll`), by a step lemma for one upsert and a run lemma over the calls.

Ids that collide (`pointNames_collide`) make a later chunk replace an earlier one: that chunk is
lost to its workspace, but it is never shown to another.
-/

namespace Picoclaw.Memory

open Picoclaw.Go Picoclaw.Qdrant Picoclaw.Tools

/-- One `ArchiveSession` call: the manager that makes it, the clock reading, the workspace, the
session and its messages. -/
structure ArchiveCall where
  manager : Manager
  now : Time
  workspaceID : String
  sessionID : String
  messages : List Message

section System

variable (newMD5 : String → String) (protoText : Any → String)

/-- The records a call stored, in order, with their collections. -/
def ArchiveCall.stores (a : ArchiveCall) : List (String × VectorRecord) :=
  (a.manager.archiveSession newMD5 a.now a.workspaceID a.sessionID a.messages).1

/-- The chunks a call set out to store: each one's id and payload. -/
def ArchiveCall.plan (a : ArchiveCall) : List (String × ChunkPayload) :=
  a.manager.archivePlan newMD5 a.now a.workspaceID a.sessionID a.messages

/-- The server after one call: each record it stored upserted, in order. -/
def archiveStep (s : Collections) (a : ArchiveCall) : Collections :=
  (a.stores newMD5).foldl (fun s cr => upsertRecord protoText s cr.1 cr.2) s

/-- The server after the calls, one after another. -/
def archiveAll (s : Collections) (calls : List ArchiveCall) : Collections :=
  calls.foldl (archiveStep newMD5 protoText) s

/-- Every point on the server is stored under its id, with the payload of a chunk one of `calls`
planned. -/
def Archived (calls : List ArchiveCall) (s : Collections) : Prop :=
  ∀ collection pts id p, s.get? collection = some pts → pts.get? id = some p →
    p.id = id ∧ ∃ a ∈ calls, ∃ rec ∈ a.plan newMD5,
      p.payload = newValueMap protoText (chunkPayloadMap rec.2)

/-- A memory listed to workspace `workspaceID` is the payload of a chunk that an archive call of
that workspace planned, as the server gives it back. -/
def ArchivedBy (calls : List ArchiveCall) (workspaceID : String) (payload : GoMap String Any) :
    Prop :=
  ∃ a ∈ calls, a.workspaceID = workspaceID ∧ ∃ rec ∈ a.plan newMD5, payload = chunkAnswerMap rec.2

/-- A chunk a call plans carries the call's workspace. -/
theorem plan_workspaceID {a : ArchiveCall} {rec : String × ChunkPayload} (h : rec ∈ a.plan newMD5) :
    rec.2.workspaceID = a.workspaceID := by
  unfold ArchiveCall.plan Manager.archivePlan at h
  split_ifs at h
  · obtain ⟨_, -, rfl⟩ := List.mem_map.mp h
    rfl
  · cases h

/-- A record a call stored is one it planned. -/
theorem stores_point_mem_plan {a : ArchiveCall} {cr : String × VectorRecord}
    (h : cr ∈ a.stores newMD5) : cr.2.point ∈ a.plan newMD5 :=
  (archiveSession_points a.manager newMD5 a.now a.workspaceID a.sessionID a.messages).1.subset
    (List.mem_map_of_mem _ h)

theorem archived_empty (calls : List ArchiveCall) :
    Archived newMD5 protoText calls GoMap.empty := by
  intro _ _ _ _ h
  cases h

/-- **One upsert keeps the server archived**, when the record is a planned one. -/
theorem Archived.upsertRecord {calls : List ArchiveCall} {s : Collections}
    (h : Archived newMD5 protoText calls s) (collection : String) {r : VectorRecord}
    (hr : ∃ a ∈ calls, r.point ∈ a.plan newMD5) :
    Archived newMD5 protoText calls (upsertRecord protoText s collection r) := by
  intro collection' pts id p hpts hp
  unfold Qdrant.upsertRecord at hpts
  rw [GoMap.get?_set] at hpts
  split_ifs at hpts with hcoll
  · cases hpts
    rw [GoMap.get?_set] at hp
    split_ifs at hp with hid
    · cases hp
      obtain ⟨a, ha, hplan⟩ := hr
      exact ⟨hid, a, ha, r.point, hplan, rfl⟩
    · cases hold : s.get? collection with
      | none => simp [hold] at hp
      | some old =>
        rw [hold, Option.getD_some] at hp
        exact h collection old id p hold hp
  · exact h collection' pts id p hpts hp

/-- **One archive call keeps the server archived.** -/
theorem Archived.archiveStep {calls : List ArchiveCall} {s : Collections}
    (h : Archived newMD5 protoText calls s) {a : ArchiveCall} (ha : a ∈ calls) :
    Archived newMD5 protoText calls (archiveStep newMD5 protoText s a) := by
  unfold Memory.archiveStep
  suffices ∀ (l : List (String × VectorRecord)) (s : Collections), (∀ cr ∈ l, cr ∈ a.stores newMD5) →
      Archived newMD5 protoText calls s →
      Archived newMD5 protoText calls
        (l.foldl (fun s cr => Qdrant.upsertRecord protoText s cr.1 cr.2) s) from
    this _ s (fun _ h => h) h
  intro l
  induction l with
  | nil => exact fun _ _ h => h
  | cons cr l ih =>
    intro s hl hs
    exact ih _ (fun c hc => hl c (List.mem_cons_of_mem _ hc))
      (hs.upsertRecord newMD5 protoText cr.1
        ⟨a, ha, stores_point_mem_plan newMD5 (hl cr (List.mem_cons_self _ _))⟩)

/-- **Every run of archive calls leaves the server archived by them.** -/
theorem archived_archiveAll (calls : List ArchiveCall) :
    Archived newMD5 protoText calls (archiveAll newMD5 protoText GoMap.empty calls) := by
  suffices ∀ (l : List ArchiveCall) (s : Collections), (∀ a ∈ l, a ∈ calls) →
      Archived newMD5 protoText calls s →
      Archived newMD5 protoText calls (l.foldl (Memory.archiveStep newMD5 protoText) s) from
    this calls _ (fun _ h => h) (archived_empty newMD5 protoText calls)
  intro l
  induction l with
  | nil => exact fun _ _ h => h
  | cons a l ih =>
    intro s hl hs
    exact ih _ (fun c hc => hl c (List.mem_cons_of_mem _ hc))
      (hs.archiveStep newMD5 protoText (hl a (List.mem_cons_self _ _)))

theorem get?_workspace_chunkPayloadMap (p : ChunkPayload) :
    (chunkPayloadMap p).get? "workspace_id" = some (.string p.workspaceID) := by
  simp [chunkPayloadMap, GoMap.ofList]

/-- **On an archived server, a served `Search` of a workspace answers only its own chunks.** -/
theorem archivedBy_of_fromWorkspace {calls : List ArchiveCall} {s : Collections}
    (h : Archived newMD5 protoText calls s) {workspaceID : String} {r : ScoredResult}
    (hr : FromWorkspace s workspaceID r) :
    ArchivedBy newMD5 calls workspaceID r.result.payload := by
  obtain ⟨collection, pts, p, hpts, hp, hws, hpayload⟩ := hr
  obtain ⟨-, a, ha, rec, hrec, hstored⟩ := h collection pts p.id p hpts hp
  rw [hstored, newValueMap, GoMap.get?_mapValues, get?_workspace_chunkPayloadMap] at hws
  have hid : rec.2.workspaceID = workspaceID := by
    simpa [newValue] using hws
  refine ⟨a, ha, (plan_workspaceID newMD5 hrec).symm.trans hid, rec, hrec, ?_⟩
  rw [hpayload, hstored, convertPayload_chunkPayload]

/-- `Search`'s results without their scores, as `SearchByDate` reads them. -/
def searchResults (query : QueryPoints → Except String (List (Point × Float))) (collection : String)
    (vector : List Float) (limit offset : Int) (filters : GoMap String Any) :
    Except String (List SearchResult) :=
  (search query collection vector limit offset filters).map (List.map ScoredResult.result)

theorem searchResults_eq_ok {query : QueryPoints → Except String (List (Point × Float))}
    {collection : String} {vector : List Float} {limit offset : Int} {filters : GoMap String Any}
    {L : List SearchResult} (h : searchResults query collection vector limit offset filters = .ok L) :
    ∃ L', search query collection vector limit offset filters = .ok L' ∧
      L = L'.map ScoredResult.result := by
  unfold searchResults at h
  cases hq : search query collection vector limit offset filters with
  | error e => simp [hq, Except.map] at h
  | ok L' => exact ⟨L', rfl, by simpa [hq, Except.map] using h.symm⟩

/-- **Neither memory tool lists another workspace's memories.** Whatever archive calls ran
against the server, and however it answers within `Answers`: `memory_search` answers a fixed
text, an error, or a listing of memories each archived by its own workspace; and so does
`memory_browse` whenever it returns. -/
theorem memory_tools_show_own_archives (calls : List ArchiveCall)
    {query : QueryPoints → Except String (List (Point × Float))}
    (hserve : Serves (archiveAll newMD5 protoText GoMap.empty calls) query)
    (formatScore : Float → String) (quote : String → String) (offset : Int)
    (input : GoMap String Any) :
    (∀ t : MemorySearchTool,
      t.execute (search query) formatScore offset input =
          silentResult "Long-term memory is not enabled." ∨
        (∃ e, t.execute (search query) formatScore offset input = errorResult e) ∨
        t.execute (search query) formatScore offset input =
          userResult "No relevant memories found." ∨
        ∃ results, (∀ r ∈ results, ArchivedBy newMD5 calls t.workspaceID r.result.payload) ∧
          t.execute (search query) formatScore offset input =
            userResult (searchText formatScore offset results)) ∧
    (∀ (t : MemoryBrowseTool) res, t.execute (searchResults query) quote offset input = .returns res →
      res = silentResult "Long-term memory is not enabled." ∨ (∃ e, res = errorResult e) ∨
        (∃ q, res = userResult ("No sessions found related to " ++ quote q ++ ".")) ∨
        ∃ results, (∀ r ∈ results, ArchivedBy newMD5 calls t.workspaceID r.payload) ∧
          ∃ q order, res = userResult (browseText quote offset q order results)) := by
  have harch := archived_archiveAll newMD5 protoText calls
  have hsearch := search_workspaceAnswers hserve
  refine ⟨fun t => memorySearch_lists (fun c v l o w L hL r hr =>
      archivedBy_of_fromWorkspace newMD5 protoText harch (hsearch c v l o w L hL r hr))
      t formatScore offset input,
    fun t res h => memoryBrowse_lists (P := fun w r => ArchivedBy newMD5 calls w r.payload)
      (fun c v l o w L hL r hr => ?_) t quote offset input h⟩
  obtain ⟨L', hL', rfl⟩ := searchResults_eq_ok hL
  obtain ⟨r', hr', rfl⟩ := List.mem_map.mp hr
  exact archivedBy_of_fromWorkspace newMD5 protoText harch (hsearch c v l o w L' hL' r' hr')

end System

/-- One archive of a greeting in workspace `"w"`, with names standing for their UUIDs. -/
def greetingArchive : List ArchiveCall := [⟨acceptingManager, ⟨0⟩, "w", "s", greeting⟩]

/-- The input `{"query": "hello"}`, which both tools answer with a search. -/
def helloInput : GoMap String Any := GoMap.empty.set "query" (.string "hello")

/-- Against the exact server, after the greeting's archive, the two tools asked about `"hello"`
list only memories their workspace archived. -/
theorem greeting_shown_only_to_own_workspace :
    (∀ t : MemorySearchTool,
      t.execute (search (exactQuery (archiveAll id (fun _ => "") GoMap.empty greetingArchive)))
          (fun _ => "0.000") 0 helloInput = silentResult "Long-term memory is not enabled." ∨
        (∃ e, t.execute (search (exactQuery (archiveAll id (fun _ => "") GoMap.empty
          greetingArchive))) (fun _ => "0.000") 0 helloInput = errorResult e) ∨
        t.execute (search (exactQuery (archiveAll id (fun _ => "") GoMap.empty greetingArchive)))
          (fun _ => "0.000") 0 helloInput = userResult "No relevant memories found." ∨
        ∃ results, (∀ r ∈ results, ArchivedBy id greetingArchive t.workspaceID r.result.payload) ∧
          t.execute (search (exactQuery (archiveAll id (fun _ => "") GoMap.empty greetingArchive)))
            (fun _ => "0.000") 0 helloInput = userResult (searchText (fun _ => "0.000") 0 results)) ∧
    (∀ (t : MemoryBrowseTool) res,
      t.execute (searchResults (exactQuery (archiveAll id (fun _ => "") GoMap.empty
        greetingArchive))) id 0 helloInput = .returns res →
      res = silentResult "Long-term memory is not enabled." ∨ (∃ e, res = errorResult e) ∨
        (∃ q, res = userResult ("No sessions found related to " ++ id q ++ ".")) ∨
        ∃ results, (∀ r ∈ results, ArchivedBy id greetingArchive t.workspaceID r.payload) ∧
          ∃ q order, res = userResult (browseText id 0 q order results)) :=
  memory_tools_show_own_archives id (fun _ => "") greetingArchive
    (exactQuery_serves _ fun c pts i p hc hp =>
      (archived_archiveAll id (fun _ => "") greetingArchive c pts i p hc hp).1)
    (fun _ => "0.000") id 0 helloInput

end Picoclaw.Memory
