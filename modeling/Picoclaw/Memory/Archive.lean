import Picoclaw.Go.Strings
import Picoclaw.Go.Runtime

/-!
# Session archival (`pkg/memory`, `(*Manager).ArchiveSession`)

`ArchiveSession` renders a session's non-system messages as text, cuts the text into
overlapping windows of code points, embeds each window and stores it as one point of the
vector store. The store and the embedder are collaborators outside this repository; the model
takes each as the answers it gives (`VectorDB`, `Embedder`) and records the `Store` calls the
manager makes, in order, with the error the call ends with.

A chunk's point id is `uuid.NewMD5(uuid.NameSpaceURL, name)` of the name
`fmt.Sprintf("%s_%s_%d_%d", workspaceID, sessionID, timestamp, i)`, where `timestamp` is the
clock reading in nanoseconds (`rawID`). The UUID function is the library's and is taken as a
parameter `newMD5`; every law below is about the names, as the spec's are.

**The laws.**
- `archiveSession_ids`: whatever a call ends with, the points it stored carry, in order, the
  ids of its first chunk names (`pointNames`).
- `rearchive_fresh_names`: two successful runs on the same session store the same chunks
  under names that share nothing unless the two clock readings are equal. Re-archiving at a
  later reading adds points; it does not overwrite them.
- `pointNames_disjoint`: two calls for different (workspace, session) pairs never use the same
  name when neither workspace id (or neither session id) contains `'_'`. The format does not
  escape `'_'`, so without that condition names collide (`pointNames_collide`).
- `archiveSession_chunk_laws`: an inactive manager answers nil and stores nothing; an active
  one that succeeds on a non-empty text stores its windows, which rebuild the text once the
  overlaps are dropped.
-/

namespace Picoclaw.Memory

open Picoclaw.Go

/-- `providers.Message`, the two fields archival reads. -/
structure Message where
  role : String
  content : String
  deriving DecidableEq, Repr

/-- Modelled from the spec: `config.MemoryConfig` (`memory{enabled, qdrant{url, apiKey,
collectionName}, embedding{.., chunkSize, ..}}`), the fields the manager reads. -/
structure MemoryConfig where
  enabled : Bool := false
  collectionName : String := ""
  chunkSize : Int := 0

/-- The payload of a stored chunk: the six keys of its `map[string]interface{}`. -/
structure ChunkPayload where
  workspaceID : String
  sessionID : String
  content : String
  timestamp : Int
  chunkIndex : Nat
  totalChunks : Nat
  deriving DecidableEq, Repr

/-- `VectorRecord` as archival builds it. -/
structure VectorRecord where
  id : String
  vector : List Float
  payload : ChunkPayload

/-- `VectorDB`, by the answers of the two calls archival makes. -/
structure VectorDB where
  store : String → VectorRecord → Except String Unit
  ensureCollection : String → Nat → Except String Unit

/-- `Embedder`, by its answers. -/
structure Embedder where
  embed : String → Except String (List Float)

/-- `memory.Manager`; a nil collaborator is `none`. -/
structure Manager where
  db : Option VectorDB
  embedder : Option Embedder
  config : MemoryConfig

/-! ## Text and chunks -/

/-- Step 1: every non-system message as `"<role>: <content>\n"`. -/
def archiveText (messages : List Message) : String :=
  String.join (messages.filterMap fun msg =>
    if msg.role = "system" then none else some (msg.role ++ ": " ++ msg.content ++ "\n"))

/-- The configured chunk size, or 4096 when it is not positive. -/
def effectiveChunkSize (cfg : MemoryConfig) : Nat :=
  if cfg.chunkSize ≤ 0 then 4096 else cfg.chunkSize.toNat

/-- The sliding-window loop from code point `i`, with `fuel` rounds left:
`for i := 0; i < len(runes); i += chunkSize - overlap`, stopping once a window reaches the
end. -/
def windowChunks (runes : List Char) (chunkSize overlap : Nat) : Nat → Nat → List String
  | 0, _ => []
  | fuel + 1, i =>
    if i < runes.length then
      let e := min (i + chunkSize) runes.length
      let chunk := String.mk ((runes.drop i).take (e - i))
      if e = runes.length then [chunk]
      else chunk :: windowChunks runes chunkSize overlap fuel (i + (chunkSize - overlap))
    else []

/-- Step 2: one chunk when the text fits, else the windows with a tenth of overlap. Each round
of the loop advances by at least one code point, so `len(runes) + 1` rounds are enough. -/
def chunkText (text : String) (chunkSize : Nat) : List String :=
  let overlap := chunkSize / 10
  let runes := text.data
  if runes.length ≤ chunkSize then [text]
  else windowChunks runes chunkSize overlap (runes.length + 1) 0

/-- The chunks a call archives: none for an empty text. -/
def archiveChunks (cfg : MemoryConfig) (messages : List Message) : List String :=
  let text := archiveText messages
  if text = "" then [] else chunkText text (effectiveChunkSize cfg)

/-! ## Points -/

/-- The name chunk `i` is hashed from: `fmt.Sprintf("%s_%s_%d_%d", ...)`. -/
def rawID (workspaceID sessionID : String) (timestamp : Int) (i : Nat) : String :=
  workspaceID ++ "_" ++ sessionID ++ "_" ++ formatInt timestamp ++ "_" ++ formatInt i

/-- The names a call hashes, one per chunk. -/
def pointNames (cfg : MemoryConfig) (workspaceID sessionID : String) (now : Time)
    (messages : List Message) : List String :=
  (List.range (archiveChunks cfg messages).length).map (rawID workspaceID sessionID now.unixNano)

/-- The record of chunk `i`. -/
def chunkRecord (newMD5 : String → String) (workspaceID sessionID : String) (timestamp : Int)
    (total i : Nat) (chunk : String) (vector : List Float) : VectorRecord :=
  let payload : ChunkPayload :=
    { workspaceID := workspaceID, sessionID := sessionID, content := chunk,
      timestamp := timestamp.tdiv 1000000000, chunkIndex := i, totalChunks := total }
  { id := newMD5 (rawID workspaceID sessionID timestamp i), vector := vector, payload := payload }

/-- The store loop from chunk `i` on: embed, then store; the first failure ends it. -/
def storeChunks (db : VectorDB) (embedder : Embedder) (newMD5 : String → String)
    (collection workspaceID sessionID : String) (timestamp : Int) (total : Nat) :
    Nat → List String → List (String × VectorRecord) × Except String Unit
  | _, [] => ([], .ok ())
  | i, chunk :: rest =>
    match embedder.embed chunk with
    | .error e =>
      ([], .error ("failed to generate embedding for chunk " ++ formatInt i ++ ": " ++ e))
    | .ok vector =>
      let record := chunkRecord newMD5 workspaceID sessionID timestamp total i chunk vector
      match db.store collection record with
      | .error e =>
        ([], .error ("failed to store chunk " ++ formatInt i ++ " in vector db (ID: " ++
          record.id ++ "): " ++ e))
      | .ok () =>
        let (more, r) := storeChunks db embedder newMD5 collection workspaceID sessionID timestamp
          total (i + 1) rest
        ((collection, record) :: more, r)

/-- `(*Manager).ArchiveSession` at clock reading `now`: the `Store` calls it makes, in order,
and the error it returns. Chunk 0 is embedded first, to size the collection, and stored with
that vector; the loop stores the rest. -/
def Manager.archiveSession (m : Manager) (newMD5 : String → String) (now : Time)
    (workspaceID sessionID : String) (messages : List Message) :
    List (String × VectorRecord) × Except String Unit :=
  match m.config.enabled, m.db, m.embedder with
  | true, some db, some embedder =>
    match archiveChunks m.config messages with
    | [] => ([], .ok ())
    | chunk0 :: rest =>
      let collection := if m.config.collectionName = "" then "picoclaw" else m.config.collectionName
      let total := rest.length + 1
      match embedder.embed chunk0 with
      | .error e => ([], .error ("failed to generate embedding for first chunk: " ++ e))
      | .ok vector =>
        match db.ensureCollection collection vector.length with
        | .error e => ([], .error ("failed to ensure collection: " ++ e))
        | .ok () =>
          let timestamp := now.unixNano
          let record0 := chunkRecord newMD5 workspaceID sessionID timestamp total 0 chunk0 vector
          match db.store collection record0 with
          | .error e =>
            ([], .error ("failed to store chunk 0 in vector db (ID: " ++ record0.id ++ "): " ++ e))
          | .ok () =>
            let (more, r) := storeChunks db embedder newMD5 collection workspaceID sessionID
              timestamp total 1 rest
            ((collection, record0) :: more, r)
  | _, _, _ => ([], .ok ())

/-- Whether archival runs at all: enabled, with both collaborators. -/
def Manager.active (m : Manager) : Bool := m.config.enabled && m.db.isSome && m.embedder.isSome

/-! ## What a call stores -/

/-- The id and payload of a stored record. -/
def VectorRecord.point (r : VectorRecord) : String × ChunkPayload := (r.id, r.payload)

/-- The id and payload chunk `i` is stored under: they do not depend on its vector. -/
def chunkPoint (newMD5 : String → String) (workspaceID sessionID : String) (timestamp : Int)
    (total : Nat) (ic : Nat × String) : String × ChunkPayload :=
  (chunkRecord newMD5 workspaceID sessionID timestamp total ic.1 ic.2 []).point

theorem chunkRecord_point (newMD5 : String → String) (workspaceID sessionID : String)
    (timestamp : Int) (total i : Nat) (chunk : String) (vector : List Float) :
    (chunkRecord newMD5 workspaceID sessionID timestamp total i chunk vector).point =
      chunkPoint newMD5 workspaceID sessionID timestamp total (i, chunk) := rfl

/-- **The store loop stores a prefix of its plan**, all of it when it returns nil. -/
theorem storeChunks_points (db : VectorDB) (embedder : Embedder) (newMD5 : String → String)
    (collection workspaceID sessionID : String) (timestamp : Int) (total : Nat) :
    ∀ (i : Nat) (chunks : List String),
      let res := storeChunks db embedder newMD5 collection workspaceID sessionID timestamp total i chunks
      let plan := (chunks.enumFrom i).map (chunkPoint newMD5 workspaceID sessionID timestamp total)
      (res.1.map (·.2.point)) <+: plan ∧ (res.2 = .ok () → res.1.map (·.2.point) = plan)
  | _, [] => by simp [storeChunks]
  | i, chunk :: rest => by
    have ih := storeChunks_points db embedder newMD5 collection workspaceID sessionID timestamp total
      (i + 1) rest
    simp only [storeChunks]
    split
    · simp
    · split
      · simp
      · simp only [List.map_cons, List.enumFrom_cons, List.cons_prefix_cons, chunkRecord_point,
          true_and, List.cons.injEq]
        exact ih

/-- What a call at reading `now` sets out to store: the id and payload of each chunk. -/
def Manager.archivePlan (m : Manager) (newMD5 : String → String) (now : Time)
    (workspaceID sessionID : String) (messages : List Message) : List (String × ChunkPayload) :=
  if m.active then
    let chunks := archiveChunks m.config messages
    chunks.enum.map (chunkPoint newMD5 workspaceID sessionID now.unixNano chunks.length)
  else []

/-- **A call stores a prefix of its plan**, all of it when it returns nil. -/
theorem archiveSession_points (m : Manager) (newMD5 : String → String) (now : Time)
    (workspaceID sessionID : String) (messages : List Message) :
    let res := m.archiveSession newMD5 now workspaceID sessionID messages
    let plan := m.archivePlan newMD5 now workspaceID sessionID messages
    res.1.map (·.2.point) <+: plan ∧ (res.2 = .ok () → res.1.map (·.2.point) = plan) := by
  unfold Manager.archiveSession Manager.archivePlan
  split
  · rename_i db embedder hen hdb hemb
    simp only [Manager.active, hen, hdb, hemb, Option.isSome_some, Bool.and_self, if_true]
    split
    · rename_i hc; simp [hc]
    · rename_i chunk0 rest hc
      simp only [hc]
      split
      · simp
      · split
        · simp
        · split
          · simp
          · have := storeChunks_points db embedder newMD5
              (if m.config.collectionName = "" then "picoclaw" else m.config.collectionName)
              workspaceID sessionID now.unixNano (rest.length + 1) 1 rest
            simp only [List.map_cons, List.enum_cons, List.length_cons, chunkRecord_point,
              List.cons_prefix_cons, true_and, List.cons.injEq]
            exact this
  · rename_i hnot
    have : m.active = false := by
      unfold Manager.active
      cases hen : m.config.enabled <;> cases hdb : m.db <;> cases hemb : m.embedder <;>
        simp_all
    simp [this]

/-! ## Names -/

theorem rawID_data (workspaceID sessionID : String) (timestamp : Int) (i : Nat) :
    (rawID workspaceID sessionID timestamp i).data =
      workspaceID.data ++ '_' :: (sessionID.data ++ '_' ::
        ((formatInt timestamp).data ++ '_' :: (formatInt i).data)) := by
  simp [rawID, List.append_assoc]

/-- The reading and the index are read back from the right of a name: decimals hold no `'_'`. -/
theorem rawID_tail_inj {p₁ p₂ : List Char} {t₁ t₂ : Int} {i j : Nat}
    (h : p₁ ++ '_' :: ((formatInt t₁).data ++ '_' :: (formatInt i).data) =
      p₂ ++ '_' :: ((formatInt t₂).data ++ '_' :: (formatInt j).data)) :
    p₁ = p₂ ∧ t₁ = t₂ ∧ i = j := by
  have reassoc : ∀ (p t x : List Char), p ++ '_' :: (t ++ '_' :: x) = (p ++ '_' :: t) ++ '_' :: x :=
    fun p t x => by simp
  rw [reassoc, reassoc] at h
  obtain ⟨h, hi⟩ := eq_of_append_cons_eq_right h (underscore_not_mem_formatInt _)
    (underscore_not_mem_formatInt _)
  obtain ⟨hp, ht⟩ := eq_of_append_cons_eq_right h (underscore_not_mem_formatInt _)
    (underscore_not_mem_formatInt _)
  exact ⟨hp, formatInt_injective (String.ext ht),
    Int.ofNat.inj (formatInt_injective (String.ext hi))⟩

/-- Within one session, a name determines the reading and the chunk. -/
theorem rawID_inj_same_session {workspaceID sessionID : String} {a b : Int} {i j : Nat}
    (h : rawID workspaceID sessionID a i = rawID workspaceID sessionID b j) : a = b ∧ i = j := by
  have hd := congrArg String.data h
  simp only [rawID_data] at hd
  have e : ∀ t k, workspaceID.data ++ '_' :: (sessionID.data ++ '_' ::
      ((formatInt t).data ++ '_' :: (formatInt k).data)) =
      (workspaceID.data ++ '_' :: sessionID.data) ++ '_' :: ((formatInt t).data ++ '_' ::
        (formatInt k).data) := fun t k => by simp
  rw [e, e] at hd
  exact (rawID_tail_inj hd).2

/-- Across sessions, a name determines the workspace and the session when neither workspace
id, or neither session id, contains `'_'`. -/
theorem rawID_inj_of_sep {ws₁ ss₁ ws₂ ss₂ : String} {a b : Int} {i j : Nat}
    (hsep : ('_' ∉ ws₁.data ∧ '_' ∉ ws₂.data) ∨ ('_' ∉ ss₁.data ∧ '_' ∉ ss₂.data))
    (h : rawID ws₁ ss₁ a i = rawID ws₂ ss₂ b j) : ws₁ = ws₂ ∧ ss₁ = ss₂ := by
  have hd := congrArg String.data h
  simp only [rawID_data] at hd
  have e : ∀ (w s : String) t k, w.data ++ '_' :: (s.data ++ '_' ::
      ((formatInt t).data ++ '_' :: (formatInt k).data)) =
      (w.data ++ '_' :: s.data) ++ '_' :: ((formatInt t).data ++ '_' :: (formatInt k).data) :=
    fun w s t k => by simp
  rw [e, e] at hd
  have hp := (rawID_tail_inj hd).1
  rcases hsep with ⟨h₁, h₂⟩ | ⟨h₁, h₂⟩
  · obtain ⟨hw, hs⟩ := eq_of_append_cons_eq_left hp h₁ h₂
    exact ⟨String.ext hw, String.ext hs⟩
  · obtain ⟨hw, hs⟩ := eq_of_append_cons_eq_right hp h₁ h₂
    exact ⟨String.ext hw, String.ext hs⟩

theorem mem_pointNames {cfg : MemoryConfig} {workspaceID sessionID : String} {now : Time}
    {messages : List Message} {x : String} :
    x ∈ pointNames cfg workspaceID sessionID now messages ↔
      ∃ i < (archiveChunks cfg messages).length, rawID workspaceID sessionID now.unixNano i = x := by
  simp [pointNames]

/-- **Every point a call stores is named by one of its chunk names**, whatever the call ends
with. -/
theorem archiveSession_ids (m : Manager) (newMD5 : String → String) (now : Time)
    (workspaceID sessionID : String) (messages : List Message) :
    ∀ r ∈ (m.archiveSession newMD5 now workspaceID sessionID messages).1,
      ∃ x ∈ pointNames m.config workspaceID sessionID now messages, r.2.id = newMD5 x := by
  intro r hr
  have hmem : r.2.point ∈ m.archivePlan newMD5 now workspaceID sessionID messages :=
    (archiveSession_points m newMD5 now workspaceID sessionID messages).1.subset
      (List.mem_map_of_mem _ hr)
  unfold Manager.archivePlan at hmem
  split at hmem
  · obtain ⟨⟨k, c⟩, hkc, he⟩ := List.mem_map.mp hmem
    refine ⟨rawID workspaceID sessionID now.unixNano k,
      mem_pointNames.mpr ⟨k, List.fst_lt_of_mem_enum hkc, rfl⟩, ?_⟩
    exact (congrArg Prod.fst he).symm
  · cases hmem

/-- The payload of a point with its timestamp cleared. -/
def ChunkPayload.undated (p : ChunkPayload) : ChunkPayload := { p with timestamp := 0 }

/-- **Re-archiving stores the same chunks under fresh names.** Two successful runs on the same
session store, chunk for chunk, the same payload up to its timestamp; each point is named by
one of the run's chunk names; and the two runs' names share nothing unless the clock readings
are equal. -/
theorem rearchive_fresh_names (m : Manager) (newMD5 : String → String)
    (workspaceID sessionID : String) (messages : List Message) (t₁ t₂ : Time)
    (w₁ w₂ : List (String × VectorRecord))
    (h₁ : m.archiveSession newMD5 t₁ workspaceID sessionID messages = (w₁, .ok ()))
    (h₂ : m.archiveSession newMD5 t₂ workspaceID sessionID messages = (w₂, .ok ())) :
    w₁.map (·.2.payload.undated) = w₂.map (·.2.payload.undated) ∧
    (∀ r ∈ w₁, ∃ x ∈ pointNames m.config workspaceID sessionID t₁ messages, r.2.id = newMD5 x) ∧
    (∀ r ∈ w₂, ∃ x ∈ pointNames m.config workspaceID sessionID t₂ messages, r.2.id = newMD5 x) ∧
    (∀ x ∈ pointNames m.config workspaceID sessionID t₁ messages,
      ∀ y ∈ pointNames m.config workspaceID sessionID t₂ messages, x = y → t₁ = t₂) := by
  have p₁ := (archiveSession_points m newMD5 t₁ workspaceID sessionID messages).2
  have p₂ := (archiveSession_points m newMD5 t₂ workspaceID sessionID messages).2
  rw [h₁] at p₁; rw [h₂] at p₂
  refine ⟨?_, by simpa [h₁] using archiveSession_ids m newMD5 t₁ workspaceID sessionID messages,
    by simpa [h₂] using archiveSession_ids m newMD5 t₂ workspaceID sessionID messages, ?_⟩
  · have e₁ := congrArg (List.map (·.2.undated)) (p₁ rfl)
    have e₂ := congrArg (List.map (·.2.undated)) (p₂ rfl)
    simp only [List.map_map] at e₁ e₂
    rw [show (fun r : String × VectorRecord => r.2.payload.undated) =
      (fun p : String × ChunkPayload => p.2.undated) ∘ (fun r => r.2.point) from rfl, e₁, e₂]
    unfold Manager.archivePlan
    split
    · simp only [List.map_map]; rfl
    · rfl
  · intro x hx y hy hxy
    obtain ⟨i, -, rfl⟩ := mem_pointNames.mp hx
    obtain ⟨j, -, rfl⟩ := mem_pointNames.mp hy
    cases t₁; cases t₂
    simp only [Time.mk.injEq]
    exact (rawID_inj_same_session hxy).1

/-- A manager whose vector store and embedder accept every call. -/
def acceptingManager : Manager :=
  { db := some { store := fun _ _ => .ok (), ensureCollection := fun _ _ => .ok () },
    embedder := some { embed := fun _ => .ok [] }, config := { enabled := true } }

/-- One user message. -/
def greeting : List Message := [{ role := "user", content := "hi" }]

/-- Two successful runs one nanosecond apart name their chunks apart. -/
theorem rearchive_fresh_names_at_two_readings :
    (pointNames acceptingManager.config "w" "s" ⟨0⟩ greeting).Disjoint
      (pointNames acceptingManager.config "w" "s" ⟨1⟩ greeting) := fun x h₀ h₁ =>
  absurd ((rearchive_fresh_names acceptingManager id "w" "s" greeting ⟨0⟩ ⟨1⟩ _ _ rfl rfl).2.2.2
    x h₀ x h₁ rfl) (by decide)

/-- Re-archiving one session one nanosecond later stores its chunk under another id (with the
name itself standing for its UUID). -/
theorem rearchive_adds_points :
    acceptingManager.archiveSession id ⟨0⟩ "w" "s" greeting =
        ([("picoclaw", chunkRecord id "w" "s" 0 1 0 "user: hi\n" [])], .ok ()) ∧
      acceptingManager.archiveSession id ⟨1⟩ "w" "s" greeting =
        ([("picoclaw", chunkRecord id "w" "s" 1 1 0 "user: hi\n" [])], .ok ()) ∧
      (chunkRecord id "w" "s" 0 1 0 "user: hi\n" []).id = "w_s_0_0" ∧
      (chunkRecord id "w" "s" 1 1 0 "user: hi\n" []).id = "w_s_1_0" :=
  ⟨rfl, rfl, rfl, rfl⟩

/-- **Different sessions never share a name** when neither workspace id, or neither session
id, contains `'_'`. -/
theorem pointNames_disjoint (cfg₁ cfg₂ : MemoryConfig) (ws₁ ss₁ ws₂ ss₂ : String) (t₁ t₂ : Time)
    (msgs₁ msgs₂ : List Message) (hne : (ws₁, ss₁) ≠ (ws₂, ss₂))
    (hsep : ('_' ∉ ws₁.data ∧ '_' ∉ ws₂.data) ∨ ('_' ∉ ss₁.data ∧ '_' ∉ ss₂.data)) :
    ∀ x ∈ pointNames cfg₁ ws₁ ss₁ t₁ msgs₁, ∀ y ∈ pointNames cfg₂ ws₂ ss₂ t₂ msgs₂, x ≠ y := by
  intro x hx y hy hxy
  obtain ⟨i, -, rfl⟩ := mem_pointNames.mp hx
  obtain ⟨j, -, rfl⟩ := mem_pointNames.mp hy
  obtain ⟨rfl, rfl⟩ := rawID_inj_of_sep hsep hxy
  exact hne rfl

/-- Workspaces `"w1"` and `"w2"` of one session keep their names apart. -/
theorem pointNames_disjoint_two_workspaces :
    (pointNames {} "w1" "s" ⟨0⟩ greeting).Disjoint (pointNames {} "w2" "s" ⟨0⟩ greeting) :=
  fun x h₁ h₂ => pointNames_disjoint {} {} "w1" "s" "w2" "s" ⟨0⟩ ⟨0⟩ greeting greeting
    (by decide) (.inl ⟨by decide, by decide⟩) x h₁ x h₂ rfl

/-- Workspace `"a_b"` with session `"c"` and workspace `"a"` with session `"b_c"` name their
chunk alike. -/
theorem pointNames_collide :
    pointNames {} "a_b" "c" ⟨0⟩ greeting = ["a_b_c_0_0"] ∧
    pointNames {} "a" "b_c" ⟨0⟩ greeting = ["a_b_c_0_0"] := by
  decide

/-! ## The windows

The loop advances by `c - o` code points, at least one, so it stops by itself: the fuel
`chunkText` gives it is never the reason it ends (`windowChunks_fuel`). Its windows rebuild the
text once the `o` code points each window shares with the one before are dropped
(`windowChunks_spec`). -/

section Windows

variable {runes : List Char} {c o : Nat}

/-- A window that reaches the end is the loop's last. -/
theorem windowChunks_last {fuel i : Nat} (hi : i < runes.length) (he : runes.length ≤ i + c) :
    windowChunks runes c o (fuel + 1) i = [String.mk (runes.drop i)] := by
  have hmin : min (i + c) runes.length = runes.length := min_eq_right he
  simp only [windowChunks, if_pos hi, hmin, if_true]
  rw [List.take_of_length_le (by simp)]

/-- A window short of the end is followed by the windows from `c - o` code points on. -/
theorem windowChunks_step {fuel i : Nat} (hi : i + c < runes.length) :
    windowChunks runes c o (fuel + 1) i =
      String.mk ((runes.drop i).take c) :: windowChunks runes c o fuel (i + (c - o)) := by
  have hmin : min (i + c) runes.length = i + c := min_eq_left hi.le
  simp only [windowChunks, if_pos (show i < runes.length by omega), hmin,
    if_neg (show i + c ≠ runes.length by omega), Nat.add_sub_cancel_left]

/-- **The loop stops by itself**: with more fuel than code points left, the fuel does not
matter. -/
theorem windowChunks_fuel (ho : o < c) :
    ∀ (fuel fuel' i : Nat), runes.length - i < fuel → runes.length - i < fuel' →
      windowChunks runes c o fuel i = windowChunks runes c o fuel' i
  | 0, _, _, h, _ | _, 0, _, _, h => absurd h (Nat.not_lt_zero _)
  | fuel + 1, fuel' + 1, i, h, h' => by
    by_cases hi : i < runes.length
    · by_cases he : runes.length ≤ i + c
      · rw [windowChunks_last hi he, windowChunks_last hi he]
      · rw [windowChunks_step (by omega), windowChunks_step (by omega),
          windowChunks_fuel ho fuel fuel' _ (by omega) (by omega)]
    · simp only [windowChunks, if_neg hi]

/-- The count of windows after the first, as the loop advances: the ceiling step. -/
theorem windowCount_step {n c d : Nat} (hd : 0 < d) (hn : c < n) :
    (if n - d ≤ c then 0 else (n - d - c + d - 1) / d) + 1 = (n - c + d - 1) / d := by
  split_ifs with h
  · exact (Nat.div_eq_of_lt_le (by omega) (by omega)).symm
  · rw [show n - c + d - 1 = (n - d - c + d - 1) + d by omega, Nat.add_div_right _ hd]

/-- **The windows from `i`**, with fuel to spare: the first is the `c` code points from `i`;
every later one holds between 1 and `c` code points; with the `o` code points each shares with
the one before dropped, they rebuild the text from `i`; and there are `⌈(n - i - c) / (c - o)⌉`
of them after the first, none when the first reaches the end. -/
theorem windowChunks_spec (ho : o < c) :
    ∀ (fuel i : Nat), i < runes.length → runes.length - i < fuel →
      ∃ rest, windowChunks runes c o fuel i = String.mk ((runes.drop i).take c) :: rest ∧
        (runes.drop i).take c ++ rest.flatMap (fun ch => ch.data.drop o) = runes.drop i ∧
        (∀ ch ∈ rest, 1 ≤ ch.length ∧ ch.length ≤ c) ∧
        rest.length = if runes.length - i ≤ c then 0
          else (runes.length - i - c + (c - o) - 1) / (c - o)
  | 0, _, _, h => absurd h (Nat.not_lt_zero _)
  | fuel + 1, i, hi, hfuel => by
    by_cases he : runes.length ≤ i + c
    · have htake : (runes.drop i).take c = runes.drop i :=
        List.take_of_length_le (by simp only [List.length_drop]; omega)
      refine ⟨[], ?_, by simp [htake], by simp, ?_⟩
      · rw [windowChunks_last hi he, htake]
      · rw [if_pos (by omega)]; rfl
    · obtain ⟨rest, hw, hglue, hlen, hcount⟩ :=
        windowChunks_spec ho fuel (i + (c - o)) (by omega) (by omega)
      have hshared : o ≤ ((runes.drop (i + (c - o))).take c).length := by simp; omega
      refine ⟨_ :: rest, by rw [windowChunks_step (by omega), hw], ?_, ?_, ?_⟩
      · calc (runes.drop i).take c ++ (((runes.drop (i + (c - o))).take c).drop o ++
              rest.flatMap (fun ch => ch.data.drop o))
            = (runes.drop i).take c ++ (runes.drop (i + (c - o))).drop o := by
              rw [← List.drop_append_of_le_length hshared, hglue]
          _ = runes.drop i := by
              rw [List.drop_drop, show i + (c - o) + o = i + c by omega, ← List.drop_drop,
                List.take_append_drop]
      · rintro ch (_ | ⟨_, hch⟩)
        · simp only [String.length, List.length_take, List.length_drop]; omega
        · exact hlen ch hch
      · rw [List.length_cons, hcount, if_neg (show ¬runes.length - i ≤ c by omega)]
        have := @windowCount_step (runes.length - i) c (c - o) (by omega) (by omega)
        simpa only [Nat.sub_sub] using this

end Windows

theorem one_le_effectiveChunkSize (cfg : MemoryConfig) : 1 ≤ effectiveChunkSize cfg := by
  unfold effectiveChunkSize
  split_ifs with h
  · decide
  · omega

/-- **The chunks of a non-empty text**: a list `chunk₀ :: rest` whose chunks hold between 1 and
`c` code points, which rebuilds the text once each later chunk's first `o = c / 10` code points
are dropped, and which has one chunk when the text fits and `⌈(n - c) / (c - o)⌉ + 1` otherwise. -/
theorem chunkText_spec (text : String) {c : Nat} (hc : 1 ≤ c) (htext : text ≠ "") :
    ∃ chunk0 rest, chunkText text c = chunk0 :: rest ∧
      chunk0.data ++ rest.flatMap (fun ch => ch.data.drop (c / 10)) = text.data ∧
      (∀ ch ∈ chunkText text c, 1 ≤ ch.length ∧ ch.length ≤ c) ∧
      (chunkText text c).length = if text.length ≤ c then 1
        else (text.length - c + (c - c / 10) - 1) / (c - c / 10) + 1 := by
  have hpos : 0 < text.data.length :=
    List.length_pos.mpr fun h => htext (String.ext (by simpa using h))
  unfold chunkText
  by_cases hfit : text.data.length ≤ c
  · refine ⟨text, [], if_pos hfit, List.append_nil _, ?_, ?_⟩
    · simp only [if_pos hfit, List.mem_singleton, forall_eq]
      exact ⟨hpos, hfit⟩
    · rw [if_pos hfit, if_pos (show text.length ≤ c from hfit)]
      rfl
  · obtain ⟨rest, hw, hglue, hlen, hcount⟩ :=
      @windowChunks_spec text.data c (c / 10) (by omega) (text.data.length + 1) 0
        hpos (by omega)
    simp only [List.drop_zero, Nat.sub_zero] at hw hglue hcount
    refine ⟨_, rest, by simp only [if_neg hfit, hw], hglue, ?_, ?_⟩
    · simp only [if_neg hfit, hw, List.mem_cons]
      rintro ch (rfl | hch)
      · simp only [String.length, List.length_take]; omega
      · exact hlen ch hch
    · simp only [if_neg hfit, hw, List.length_cons, hcount, String.length]

/-- The payloads an active call stores when it returns nil: chunk `k` of the text, with index
`k`, the count of chunks, and the reading in whole seconds. -/
theorem archiveSession_payloads {m : Manager} {newMD5 : String → String} {now : Time}
    {workspaceID sessionID : String} {messages : List Message}
    {stored : List (String × VectorRecord)} (hactive : m.active = true)
    (hok : m.archiveSession newMD5 now workspaceID sessionID messages = (stored, .ok ())) :
    stored.map (·.2.payload) = (archiveChunks m.config messages).enum.map fun ic =>
      { workspaceID := workspaceID, sessionID := sessionID, content := ic.2,
        timestamp := now.unixNano.tdiv 1000000000, chunkIndex := ic.1,
        totalChunks := (archiveChunks m.config messages).length } := by
  have h := (archiveSession_points m newMD5 now workspaceID sessionID messages).2
  rw [hok] at h
  simpa [Manager.archivePlan, hactive, List.map_map, Function.comp_def, chunkPoint, chunkRecord,
    VectorRecord.point] using congrArg (List.map Prod.snd) (h rfl)

/-- An inactive manager (disabled, or without a store or an embedder) answers nil and stores
nothing. -/
theorem archiveSession_of_inactive {m : Manager} (h : m.active = false) (newMD5 : String → String)
    (now : Time) (workspaceID sessionID : String) (messages : List Message) :
    m.archiveSession newMD5 now workspaceID sessionID messages = ([], .ok ()) := by
  unfold Manager.archiveSession
  split
  · rename_i db embedder hen hdb hemb
    simp [Manager.active, hen, hdb, hemb] at h
  · rfl

/-- **What an archival stores.** An inactive manager answers nil and stores nothing. A
successful archival of a non-empty text by an active manager, with `r` the text's code points,
`c` the chunk size in force and `o = c / 10`, stores `1` record when `r` fits in `c` and
`⌈(n - c) / (c - o)⌉ + 1` otherwise; record `k` carries index `k`, the count, and the reading in
whole seconds; each chunk holds between 1 and `c` code points; the chunks rebuild `r` once each
later chunk's first `o` code points are dropped; and for every `c ≥ 1` the window loop stops by
itself, more fuel changing nothing. -/
theorem archiveSession_chunk_laws (m : Manager) (newMD5 : String → String) (now : Time)
    (workspaceID sessionID : String) (messages : List Message) :
    (m.active = false →
      m.archiveSession newMD5 now workspaceID sessionID messages = ([], .ok ())) ∧
    ∀ stored : List (String × VectorRecord), m.active = true → archiveText messages ≠ "" →
      m.archiveSession newMD5 now workspaceID sessionID messages = (stored, .ok ()) →
      let r := (archiveText messages).data
      let c := effectiveChunkSize m.config
      let o := c / 10
      (stored.length = if r.length ≤ c then 1 else (r.length - c + (c - o) - 1) / (c - o) + 1) ∧
      (∀ k (hk : k < stored.length), stored[k].2.payload.chunkIndex = k ∧
        stored[k].2.payload.totalChunks = stored.length ∧
        stored[k].2.payload.timestamp = now.unixNano.tdiv 1000000000) ∧
      (∀ rec ∈ stored, 1 ≤ rec.2.payload.content.length ∧ rec.2.payload.content.length ≤ c) ∧
      (∃ chunk0 rest, stored.map (·.2.payload.content) = chunk0 :: rest ∧
        chunk0.data ++ rest.flatMap (fun ch => ch.data.drop o) = r) ∧
      (∀ c', 1 ≤ c' → ∀ (runes : List Char) (fuel : Nat), runes.length + 1 ≤ fuel →
        windowChunks runes c' (c' / 10) fuel 0 = windowChunks runes c' (c' / 10) (runes.length + 1) 0) := by
  refine ⟨fun h => archiveSession_of_inactive h _ _ _ _ _, fun stored hactive htext hok => ?_⟩
  intro r c o
  obtain ⟨chunk0, rest, hchunks, hglue, hlen, hcount⟩ :=
    chunkText_spec (archiveText messages) (one_le_effectiveChunkSize m.config) htext
  have hp := archiveSession_payloads hactive hok
  rw [show archiveChunks m.config messages = chunkText (archiveText messages) c by
    simp [archiveChunks, htext, c]] at hp
  have hlength : stored.length = (chunkText (archiveText messages) c).length := by
    simpa using congrArg List.length hp
  have hcontent : stored.map (·.2.payload.content) = chunkText (archiveText messages) c := by
    simpa [List.map_map, Function.comp_def, List.enum_map_snd] using
      congrArg (List.map ChunkPayload.content) hp
  refine ⟨hlength.trans hcount, fun k hk => ?_, fun rec hrec => ?_,
    ⟨chunk0, rest, hcontent.trans hchunks, hglue⟩,
    fun c' hc' runes fuel hfuel => windowChunks_fuel (by omega) _ _ 0 (by omega) (by omega)⟩
  · have hk' : k < (chunkText (archiveText messages) c).length := hlength ▸ hk
    have := congrArg (·[k]?) hp
    simp only [List.getElem?_map, List.getElem?_enum, List.getElem?_eq_getElem hk,
      List.getElem?_eq_getElem hk', Option.map_some', Option.some.injEq] at this
    simp [this, hlength]
  · exact hlen _ (hcontent ▸ List.mem_map_of_mem _ hrec)

/-- A manager like `acceptingManager` whose chunks are 10 code points. -/
def tenPointManager : Manager := { acceptingManager with config := { enabled := true, chunkSize := 10 } }

/-- A 24-code-point text at chunk size 10 is stored as three overlapping chunks. -/
theorem archive_long_text_in_three_chunks :
    (tenPointManager.archiveSession id ⟨0⟩ "w" "s"
      [{ role := "user", content := "abcdefghijklmnopq" }]).1.length = 3 := by
  obtain ⟨hlen, -⟩ := (archiveSession_chunk_laws tenPointManager id ⟨0⟩ "w" "s"
    [{ role := "user", content := "abcdefghijklmnopq" }]).2 _ rfl (by decide) rfl
  exact hlen.trans (by decide)

/-- A disabled manager answers nil to a non-empty session and stores nothing. -/
theorem disabled_archive_stores_nothing :
    archiveText greeting ≠ "" ∧
      ({ acceptingManager with config := {} } : Manager).archiveSession id ⟨0⟩ "w" "s" greeting =
        ([], .ok ()) :=
  ⟨by decide, rfl⟩

end Picoclaw.Memory
