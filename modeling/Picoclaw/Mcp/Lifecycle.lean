import Picoclaw.Mcp.Catalog

/-!
# Server lifecycle over whole runs

A run is a sequence of `AddServer`, `RemoveServer`, `ConnectServer`, `DisconnectServer` and
`CallTool` calls from `NewManager()`; it records each call with the error it returned, and it
stops if a call panics. For each server name, the most recent lifecycle event on it decides
what the manager holds under that name (`Agrees`): nothing, a server marked connected with no
tools (after `AddServer`), a connected server (after a `ConnectServer` that returned nil), or a
disconnected one (after a `DisconnectServer` that returned nil).

**The laws.** `run_agrees` carries that correspondence along every run that returns, from the
one-step lemmas `step_get?_of_target_ne` (a call leaves other names alone) and
`step_agrees_target`. Read off it, `lifecycle_gates_calls_and_catalog`: `CallTool(name)`
succeeds exactly when the most recent lifecycle call on `name` was `AddServer` or a
`ConnectServer` that returned nil, and the catalogs list only tools of servers whose most
recent lifecycle call was such a `ConnectServer`. So a server that has only been added is
callable (`AddServer` marks it connected) but advertises nothing (`added_server_is_callable`).

A stdio `ConnectServer` stores a command it never starts, and `DisconnectServer` then kills
the command's nil `Process`: `disconnectServer_panics_after_connectStdio`.
-/

namespace Picoclaw.Mcp

open Picoclaw.Go

/-- A call of the manager's lifecycle and tool API. -/
inductive Call where
  | addServer (config : MCPServerConfig)
  | removeServer (name : String)
  | connectServer (name : String)
  | disconnectServer (name : String)
  | callTool (serverName toolName : String) (args : List (String × Any))

/-- The server name a lifecycle call acts on; `CallTool` is not a lifecycle call. -/
def Call.target : Call → Option String
  | .addServer config => some config.name
  | .removeServer name => some name
  | .connectServer name => some name
  | .disconnectServer name => some name
  | .callTool .. => none

/-- One call: the state after it and the error it returned, unless it panics. -/
def MCPManager.step (m : MCPManager) : Call → Outcome (MCPManager × Except String Unit)
  | .addServer config => .returns (m.addServer config)
  | .removeServer name => .returns (m.removeServer name, .ok ())
  | .connectServer name => .returns (m.connectServer name)
  | .disconnectServer name => m.disconnectServer name
  | .callTool serverName toolName args =>
    .returns (m, (m.callTool serverName toolName args).map fun _ => ())

/-- A run: the final state and every call with what it returned, unless a call panics. -/
def MCPManager.run (m : MCPManager) : List Call → Outcome (MCPManager × List (Call × Except String Unit))
  | [] => .returns (m, [])
  | c :: cs =>
    (m.step c).bind fun (m', r) =>
      (m'.run cs).bind fun (m'', events) => .returns (m'', (c, r) :: events)

/-- The most recent lifecycle event on `name`. -/
def lastOn (name : String) (events : List (Call × Except String Unit)) :
    Option (Call × Except String Unit) :=
  (events.filter fun e => e.1.target = some name).getLast?

theorem lastOn_append_single (name : String) (events : List (Call × Except String Unit))
    (c : Call) (r : Except String Unit) :
    lastOn name (events ++ [(c, r)]) = if c.target = some name then some (c, r) else lastOn name events := by
  by_cases h : c.target = some name <;> simp [lastOn, List.filter_append, h]

/-- What the manager holds under a name, given the most recent lifecycle event on it. -/
def Agrees (entry : Option MCPServer) : Option (Call × Except String Unit) → Prop
  | some (.addServer _, _) => ∃ s, entry = some s ∧ s.connected = true ∧ s.tools = []
  | some (.connectServer _, .ok ()) => ∃ s, entry = some s ∧ s.connected = true
  | some (.disconnectServer _, .ok ()) => ∃ s, entry = some s ∧ s.connected = false
  | _ => entry = none

/-! ## One step -/

theorem step_get?_of_target_ne {m m' : MCPManager} {c : Call} {r : Except String Unit}
    (h : m.step c = .returns (m', r)) {name : String} (hn : c.target ≠ some name) :
    m'.servers.get? name = m.servers.get? name := by
  cases c with
  | addServer config =>
    cases h
    have : config.name ≠ name := fun e => hn (congrArg some e)
    simp [MCPManager.addServer, this]
  | removeServer n =>
    cases h
    have : n ≠ name := fun e => hn (congrArg some e)
    simp [MCPManager.removeServer, this]
  | connectServer n =>
    have : n ≠ name := fun e => hn (congrArg some e)
    simp only [MCPManager.step, MCPManager.connectServer, Outcome.returns.injEq] at h
    split at h
    · cases h; rfl
    · split at h <;> cases h <;>
        simp [MCPManager.connectHTTP, MCPManager.connectStdio, this]
  | disconnectServer n =>
    have : n ≠ name := fun e => hn (congrArg some e)
    simp only [MCPManager.step, MCPManager.disconnectServer] at h
    split at h
    · cases h; rfl
    · split at h
      · cases h; simp [this]
      · split at h <;> cases h; simp [this]
  | callTool => cases h; rfl

theorem step_agrees_target {m m' : MCPManager} {c : Call} {r : Except String Unit}
    (h : m.step c = .returns (m', r)) {name : String} (hn : c.target = some name) :
    Agrees (m'.servers.get? name) (some (c, r)) := by
  cases c with
  | addServer config =>
    cases h; cases hn
    simp [Agrees, MCPManager.addServer]
  | removeServer n =>
    cases h; cases hn
    simp [Agrees, MCPManager.removeServer]
  | connectServer n =>
    cases hn
    simp only [MCPManager.step, MCPManager.connectServer, Outcome.returns.injEq] at h
    split at h
    · cases h; simpa [Agrees]
    · rename_i s hs
      split at h <;> cases h <;>
        simp [Agrees, MCPManager.connectHTTP, MCPManager.connectStdio, hs]
  | disconnectServer n =>
    cases hn
    simp only [MCPManager.step, MCPManager.disconnectServer] at h
    split at h
    · cases h; simpa [Agrees]
    · rename_i s hs
      split at h
      · cases h; simp [Agrees, hs]
      · split at h <;> cases h; simp [Agrees, hs]
  | callTool => cases hn

/-! ## Whole runs -/

theorem run_agrees_from (pre : List (Call × Except String Unit)) :
    ∀ (cs : List Call) {m m' : MCPManager} {events : List (Call × Except String Unit)},
      (∀ name, Agrees (m.servers.get? name) (lastOn name pre)) →
      m.run cs = .returns (m', events) →
      ∀ name, Agrees (m'.servers.get? name) (lastOn name (pre ++ events))
  | [], m, m', events, hinv, h => by
    cases h; simpa using hinv
  | c :: cs, m, m', events, hinv, h => by
    simp only [MCPManager.run, Outcome.bind_eq_returns] at h
    obtain ⟨⟨m₁, r⟩, h₁, ⟨m₂, rest⟩, h₂, he⟩ := h
    cases he
    have hinv₁ : ∀ name, Agrees (m₁.servers.get? name) (lastOn name (pre ++ [(c, r)])) := by
      intro name
      rw [lastOn_append_single]
      split
      · exact step_agrees_target h₁ ‹_›
      · rw [step_get?_of_target_ne h₁ ‹_›]; exact hinv name
    have := run_agrees_from (pre ++ [(c, r)]) cs hinv₁ h₂
    simpa using this

/-- **Every run from `NewManager()` that returns agrees with its lifecycle events.** -/
theorem run_agrees {cs : List Call} {m' : MCPManager} {events : List (Call × Except String Unit)}
    (h : newManager.run cs = .returns (m', events)) (name : String) :
    Agrees (m'.servers.get? name) (lastOn name events) := by
  simpa using run_agrees_from [] cs (fun name => by simp [Agrees, lastOn, newManager]) h name

/-- `CallTool` succeeds exactly on a stored, connected server. -/
theorem callTool_ok_iff (m : MCPManager) (name toolName : String) (args : List (String × Any)) :
    (∃ res, m.callTool name toolName args = .ok res) ↔
      ∃ s, m.servers.get? name = some s ∧ s.connected = true := by
  unfold MCPManager.callTool
  split
  · simp_all
  · rename_i s hs
    cases hc : s.connected <;> simp [hs, hc]

theorem target_of_lastOn {name : String} {events : List (Call × Except String Unit)}
    {c : Call} {r : Except String Unit} (h : lastOn name events = some (c, r)) :
    c.target = some name := by
  have := List.mem_of_getLast?_eq_some h
  simp only [List.mem_filter, decide_eq_true_eq] at this
  exact this.2

/-- A `ConnectServer` that is the last lifecycle event on `name` was a call on `name`. -/
theorem lastOn_connectServer {name n : String} {events : List (Call × Except String Unit)}
    {r : Except String Unit} (h : lastOn name events = some (.connectServer n, r)) :
    lastOn name events = some (.connectServer name, r) := by
  have := target_of_lastOn h
  simp only [Call.target, Option.some.injEq] at this
  exact this ▸ h

/-- A stored server is connected after an `AddServer`, with no tools, or after a
`ConnectServer` that returned nil. -/
theorem agrees_connected {s : MCPServer} {last : Option (Call × Except String Unit)}
    (ha : Agrees (some s) last) (hc : s.connected = true) :
    (∃ config r, last = some (.addServer config, r) ∧ s.tools = []) ∨
      ∃ n, last = some (.connectServer n, .ok ()) := by
  rcases last with _ | ⟨c, r⟩
  · cases ha
  · cases c with
    | addServer config =>
      obtain ⟨s', hs', -, ht⟩ := ha
      cases hs'; exact .inl ⟨config, r, rfl, ht⟩
    | connectServer n =>
      cases r with
      | ok u => exact .inr ⟨n, rfl⟩
      | error e => cases ha
    | disconnectServer n =>
      cases r with
      | ok u => obtain ⟨s', hs', hd⟩ := ha; cases hs'; simp_all
      | error e => cases ha
    | removeServer n => cases ha
    | callTool => cases ha

/-- **Lifecycle gates calls and the catalog.** After any run from `NewManager()` that
returns, `CallTool(name)` succeeds exactly when the most recent lifecycle call on `name` was
an `AddServer` or a `ConnectServer` that returned nil, and every tool either catalog lists
comes from a server whose most recent lifecycle call was a `ConnectServer` that returned nil. -/
theorem lifecycle_gates_calls_and_catalog {cs : List Call} {m' : MCPManager}
    {events : List (Call × Except String Unit)} (h : newManager.run cs = .returns (m', events)) :
    (∀ name toolName args, (∃ res, m'.callTool name toolName args = .ok res) ↔
      ((∃ config r, lastOn name events = some (.addServer config, r)) ∨
        lastOn name events = some (.connectServer name, .ok ()))) ∧
    (∀ w, ∀ d ∈ m'.getAllTools ++ m'.getToolsForWorkspace w, ∃ name s,
      m'.servers.get? name = some s ∧ d ∈ s.allowedTools ∧
      lastOn name events = some (.connectServer name, .ok ())) := by
  refine ⟨fun name toolName args => ?_, fun w d hd => ?_⟩
  · rw [callTool_ok_iff]
    have ha := run_agrees h name
    constructor
    · rintro ⟨s, hs, hc⟩
      rw [hs] at ha
      rcases agrees_connected ha hc with ⟨config, r, hl, -⟩ | ⟨n, hl⟩
      · exact .inl ⟨config, r, hl⟩
      · exact .inr (lastOn_connectServer hl)
    · rintro (⟨config, r, hl⟩ | hl) <;> rw [hl] at ha
      · obtain ⟨s, hs, hc, -⟩ := ha; exact ⟨s, hs, hc⟩
      · exact ha
  · have hall : d ∈ m'.getAllTools :=
      (List.mem_append.mp hd).elim id mem_getAllTools_of_mem_getToolsForWorkspace
    obtain ⟨name, s, hs, hc, t, ht, hallow, rfl⟩ := mem_getAllTools.mp hall
    have ha := run_agrees h name
    rw [hs] at ha
    have hd' : s.prefixed t ∈ s.allowedTools := mem_allowedTools.mpr ⟨t, ht, hallow, rfl⟩
    refine ⟨name, s, hs, hd', ?_⟩
    rcases agrees_connected ha hc with ⟨config, r, -, hnil⟩ | ⟨n, hl⟩
    · rw [hnil] at ht; cases ht
    · exact lastOn_connectServer hl

/-- An HTTP server added and connected: calls reach it because its last lifecycle call was the
connect. -/
theorem http_server_lifecycle_gates_calls :
    ∃ m' events, newManager.run [.addServer { name := "fs", url := "http://localhost:8080" },
        .connectServer "fs"] = .returns (m', events) ∧
      ((∃ res, m'.callTool "fs" "read_file" [] = .ok res) ↔
        ((∃ config r, lastOn "fs" events = some (.addServer config, r)) ∨
          lastOn "fs" events = some (.connectServer "fs", .ok ()))) :=
  ⟨_, _, rfl, (@lifecycle_gates_calls_and_catalog
    [.addServer { name := "fs", url := "http://localhost:8080" }, .connectServer "fs"] _ _ rfl).1
    "fs" "read_file" []⟩

/-- A server that has only been added is callable: `AddServer` marks it connected. -/
theorem added_server_is_callable :
    ∃ m' events, newManager.run [.addServer { name := "fs", command := "npx" }] =
        .returns (m', events) ∧
      lastOn "fs" events = some (.addServer { name := "fs", command := "npx" }, .ok ()) ∧
      ∃ res, m'.callTool "fs" "read_file" [] = .ok res :=
  ⟨_, _, rfl, rfl, _, rfl⟩

/-! ## Disconnecting a stdio server -/

/-- **`DisconnectServer` panics after a stdio `ConnectServer`.** From any state holding a
server without a URL under `name`, connecting it stores an unstarted command, and
disconnecting it then dereferences the command's nil `Process`. -/
theorem disconnectServer_panics_after_connectStdio (m : MCPManager) (name : String)
    (s : MCPServer) (hs : m.servers.get? name = some s) (hurl : s.url = "") :
    (m.connectServer name).1.disconnectServer name = .panics nilDereference := by
  simp [MCPManager.connectServer, hs, hurl, MCPManager.connectStdio, MCPManager.disconnectServer]

/-- Add a stdio server, connect it, disconnect it: the process crashes. -/
theorem stdio_lifecycle_panics :
    newManager.run [.addServer { name := "fs", command := "npx" }, .connectServer "fs",
      .disconnectServer "fs"] = .panics nilDereference := by
  have h := disconnectServer_panics_after_connectStdio
    (newManager.addServer { name := "fs", command := "npx" }).1 "fs" _ rfl rfl
  simp only [MCPManager.run, MCPManager.step, Outcome.returns_bind, h, Outcome.panics_bind]

end Picoclaw.Mcp
