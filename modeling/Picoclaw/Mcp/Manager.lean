import Picoclaw.Go.Map
import Picoclaw.Go.Json
import Picoclaw.Go.Runtime

/-!
# The MCP client manager (`pkg/mcp`)

`MCPManager` keeps the external tool servers in a map from name to server and offers them as
one catalog. This module is the faithful layer: the records of `types.go` and `client.go`, and
each method of the manager as the code computes it.

Three things in the code shape everything said about it later:

- `AddServer` builds the server with `Connected: false`, stores it, and then sets
  `server.Connected = true` through the stored pointer (`addServer` keeps both steps).
- `ConnectServer` sends nothing: `connectStdio` builds an `exec.Cmd` it never starts, marshals
  an `initialize` request it drops (`_ = data`), and installs one example tool; `connectHTTP`
  installs another. A stdio connect therefore leaves a command whose `Process` is nil.
- `CallTool` builds a `tools/call` request it drops (`_ = req`) and answers a fixed result.

`GetAllTools` and `GetToolsForWorkspace` are one loop (`collectTools`) that differ in which
servers it admits; `isWorkspaceAllowed` and `isToolAllowed` are one rule (`listsAdmit`) over
different lists. Each keeps its own definition under its own name.

Left out, since no method reads them: the config's `Headers` and `ToolTimeout`, the server's
`Headers` and `Capabilities`, the manager's `ToolTimeout`, and the mutexes (the model runs one
call at a time).
-/

namespace Picoclaw.Mcp

open Picoclaw.Go

/-! ## Records (`types.go`) -/

/-- `MCPToolDef`: a tool as a server lists it, or as the catalog renames it. -/
structure MCPToolDef where
  name : String
  description : String := ""
  inputSchema : Any := .null

/-- `ToolContent`: one item of a tool result, of type `"text"`, `"image"` or `"resource"`. -/
structure ToolContent where
  type : String
  text : String := ""
  data : String := ""
  mimeType : String := ""
  deriving DecidableEq, Repr

/-- `CallToolResult`. -/
structure CallToolResult where
  content : List ToolContent := []
  isError : Bool := false
  deriving DecidableEq, Repr

/-- `ServerSummary`: one server as the system prompt describes it. -/
structure ServerSummary where
  name : String
  tools : List String
  description : String
  deriving DecidableEq, Repr

/-! ## Servers (`client.go`) -/

/-- `MCPServerConfig`; each field defaults to Go's zero value. -/
structure MCPServerConfig where
  name : String := ""
  command : String := ""
  args : List String := []
  env : GoMap String String := GoMap.empty
  url : String := ""
  workspaceAllowList : List String := []
  workspaceDenyList : List String := []
  toolAllowList : List String := []
  toolDenyList : List String := []

/-- An `*os.Process`. -/
structure Process where
  pid : Int

/-- An `*exec.Cmd` as `exec.CommandContext` returns it. `Start` fills in `process`; this
program never calls `Start`. -/
structure Cmd where
  path : String
  args : List String
  env : List String
  process : Option Process := none

/-- `MCPServer`; `cmd` is the unexported `*exec.Cmd`, `none` while nil. -/
structure MCPServer where
  name : String := ""
  command : String := ""
  args : List String := []
  env : GoMap String String := GoMap.empty
  url : String := ""
  connected : Bool := false
  tools : List MCPToolDef := []
  workspaceAllowList : List String := []
  workspaceDenyList : List String := []
  toolAllowList : List String := []
  toolDenyList : List String := []
  cmd : Option Cmd := none

/-- `MCPManager`: the servers by name. -/
structure MCPManager where
  servers : GoMap String MCPServer

/-- `NewManager()`. -/
def newManager : MCPManager := ⟨GoMap.empty⟩

/-! ## Access lists -/

/-- The rule `isWorkspaceAllowed` and `isToolAllowed` share: a non-empty allow list decides
alone; otherwise everything not on the deny list passes. -/
def listsAdmit (allowList denyList : List String) (x : String) : Bool :=
  if allowList.length > 0 then allowList.contains x else !denyList.contains x

/-- `(*MCPServer).isWorkspaceAllowed`. -/
def MCPServer.isWorkspaceAllowed (s : MCPServer) (workspace : String) : Bool :=
  listsAdmit s.workspaceAllowList s.workspaceDenyList workspace

/-- `(*MCPServer).isToolAllowed`. -/
def MCPServer.isToolAllowed (s : MCPServer) (toolName : String) : Bool :=
  listsAdmit s.toolAllowList s.toolDenyList toolName

/-- The rule in the spec's words: an allow list, if non-empty, is authoritative; else the deny
list is applied. -/
theorem listsAdmit_iff (allowList denyList : List String) (x : String) :
    listsAdmit allowList denyList x = true ↔
      (allowList ≠ [] ∧ x ∈ allowList) ∨ (allowList = [] ∧ x ∉ denyList) := by
  cases allowList <;> simp [listsAdmit]

/-! ## The catalog -/

/-- A tool under its catalog name `"<server>__<tool>"`. -/
def MCPServer.prefixed (s : MCPServer) (t : MCPToolDef) : MCPToolDef :=
  { name := s.name ++ "__" ++ t.name, description := t.description, inputSchema := t.inputSchema }

/-- The inner loop of the catalog: the server's allowed tools, prefixed. -/
def MCPServer.allowedTools (s : MCPServer) : List MCPToolDef :=
  (s.tools.filter fun t => s.isToolAllowed t.name).map s.prefixed

/-- The loop `GetAllTools` and `GetToolsForWorkspace` share: every connected server that
`keep` accepts contributes its allowed tools, in map order. -/
def collectTools (keep : MCPServer → Bool) (m : MCPManager) : List MCPToolDef :=
  m.servers.values.flatMap fun s => if s.connected && keep s then s.allowedTools else []

/-- `(*MCPManager).GetAllTools`. -/
def MCPManager.getAllTools (m : MCPManager) : List MCPToolDef :=
  collectTools (fun _ => true) m

/-- `(*MCPManager).GetToolsForWorkspace`. -/
def MCPManager.getToolsForWorkspace (m : MCPManager) (workspace : String) : List MCPToolDef :=
  collectTools (·.isWorkspaceAllowed workspace) m

/-- `(*MCPManager).GetServerSummary`: every server, connected or not, with all its tools. -/
def MCPManager.getServerSummary (m : MCPManager) : List ServerSummary :=
  m.servers.values.map fun s =>
    { name := s.name, tools := s.tools.map (·.name),
      description := "MCP server with " ++ toString s.tools.length ++ " tools" }

/-! ## Lifecycle -/

/-- `(*MCPManager).AddServer`: the server is built disconnected, stored, and then marked
connected through the stored pointer. It always returns `nil`. -/
def MCPManager.addServer (m : MCPManager) (config : MCPServerConfig) :
    MCPManager × Except String Unit :=
  let server : MCPServer :=
    { name := config.name, command := config.command, args := config.args, env := config.env,
      url := config.url, workspaceAllowList := config.workspaceAllowList,
      workspaceDenyList := config.workspaceDenyList, toolAllowList := config.toolAllowList,
      toolDenyList := config.toolDenyList, connected := false, tools := [] }
  let servers := m.servers.set config.name server
  (⟨servers.modify config.name fun s => { s with connected := true }⟩, .ok ())

/-- `(*MCPManager).RemoveServer`. -/
def MCPManager.removeServer (m : MCPManager) (name : String) : MCPManager :=
  ⟨m.servers.delete name⟩

/-- The tool `connectStdio` installs. -/
def exampleTool : MCPToolDef :=
  { name := "example_tool", description := "Example MCP tool",
    inputSchema := .map [("type", .string "object")] }

/-- The tool `connectHTTP` installs. -/
def httpExampleTool : MCPToolDef :=
  { name := "http_example", description := "Example HTTP MCP tool",
    inputSchema := .map [("type", .string "object")] }

/-- `(*MCPManager).connectStdio` on the server stored under `name`: the command is built and
stored but not started, the server marked connected, and the example tool installed. The
`initialize` request it marshals is dropped (`_ = data`), and marshalling these fields cannot
fail, so it returns `nil`. -/
def MCPManager.connectStdio (m : MCPManager) (name : String) (server : MCPServer) :
    MCPManager × Except String Unit :=
  let cmd : Cmd :=
    { path := server.command, args := server.args,
      env := server.env.entries.map fun kv => kv.1 ++ "=" ++ kv.2 }
  let stdio (s : MCPServer) : MCPServer :=
    { s with cmd := some cmd, connected := true, tools := [exampleTool] }
  (⟨m.servers.modify name stdio⟩, .ok ())

/-- `(*MCPManager).connectHTTP` on the server stored under `name`. -/
def MCPManager.connectHTTP (m : MCPManager) (name : String) : MCPManager × Except String Unit :=
  (⟨m.servers.modify name fun s => { s with connected := true, tools := [httpExampleTool] }⟩,
    .ok ())

/-- `(*MCPManager).ConnectServer`. -/
def MCPManager.connectServer (m : MCPManager) (name : String) : MCPManager × Except String Unit :=
  match m.servers.get? name with
  | none => (m, .error ("server " ++ name ++ " not found"))
  | some server => if server.url ≠ "" then m.connectHTTP name else m.connectStdio name server

/-- `(*MCPManager).DisconnectServer`. A stored command is killed through its `Process`, which
is nil unless the command was started: dereferencing it panics. -/
def MCPManager.disconnectServer (m : MCPManager) (name : String) :
    Outcome (MCPManager × Except String Unit) :=
  let disconnected : MCPManager := ⟨m.servers.modify name fun s => { s with connected := false }⟩
  match m.servers.get? name with
  | none => .returns (m, .error ("server " ++ name ++ " not found"))
  | some server =>
    match server.cmd with
    | none => .returns (disconnected, .ok ())
    | some cmd =>
      match cmd.process with
      | none => .panics nilDereference
      | some _ => .returns (disconnected, .ok ())

/-- The result `CallTool` answers for every connected server. -/
def mcpToolResult : CallToolResult :=
  { content := [{ type := "text", text := "MCP tool result" }] }

/-- `(*MCPManager).CallTool`. The `tools/call` request it builds is dropped (`_ = req`). -/
def MCPManager.callTool (m : MCPManager) (serverName _toolName : String)
    (_args : List (String × Any)) : Except String CallToolResult :=
  match m.servers.get? serverName with
  | none => .error ("server " ++ serverName ++ " not found")
  | some server =>
    if !server.connected then .error ("server " ++ serverName ++ " not connected")
    else .ok mcpToolResult

end Picoclaw.Mcp
