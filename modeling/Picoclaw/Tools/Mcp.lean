import Picoclaw.Mcp.Catalog
import Picoclaw.Go.Strings
import Mathlib.Data.String.Basic

/-!
# MCP-backed tools (`pkg/tools/mcp.go`)

An `MCPTool` wraps one catalog entry. `Execute` splits the entry's name at the first `"__"`
(`strings.SplitN(name, "__", 2)`) and calls the manager with the two halves, taking the first
as the server and the second as the tool.

**The law** (`catalog_routing`): for every manager state, each entry of either catalog comes
from a stored server `s` and one of its tools `t`, and routing the entry's name gives back
`(s.Name, t.Name)` exactly when `s.Name` contains no `"__"` and does not end in `'_'`; for such
server names distinct pairs get distinct names. Nothing checks server names: a server called
`"a_"` with a tool `"b"` and a server `"a"` with a tool `"_b"` both list `"a___b"`, and both
route to server `"a"` (`catalog_name_misroutes`).

**The text of a result** (`execute_result_text`): once `CallTool` has returned `r`, `Execute`
answers `toolResultOf r`, whose text is `strings.TrimSpace` of the `Text` of `r`'s `"text"`
items joined with `"\n"`: as `ForLLM`, or, when `r.IsError`, in the error
`"MCP tool error: <text>"`. The other items are dropped: the answer is the same with only the
text items kept. Whitespace around the joined text is therefore lost, and an image item
reaches nobody (`trimmed_text_drops_image`). The `CallTool` of this program returns one fixed
text item, `"MCP tool result"`.
-/

namespace Picoclaw.Tools

open Picoclaw.Go Picoclaw.Mcp

/-- Modelled from the spec: the tool result type of `pkg/tools`, which is not in the sources
(§4.F: `forLLM`, `forUser`, `silent`, `err`); `Execute` sets only `ForLLM` and `Err`. -/
structure ToolResult where
  forLLM : String := ""
  forUser : String := ""
  silent : Bool := false
  err : Option String := none
  deriving DecidableEq, Repr

/-- `MCPTool`: the manager it calls and the catalog entry it stands for. -/
structure MCPTool where
  manager : MCPManager
  toolDef : MCPToolDef

/-- `(*MCPTool).Name`: the catalog name, `<server>__<tool>`. -/
def MCPTool.name (t : MCPTool) : String := t.toolDef.name

/-- `(*MCPTool).Description`. -/
def MCPTool.description (t : MCPTool) : String := t.toolDef.description

/-- `(*MCPTool).Parameters`: the tool's input schema, or an object schema with no properties
when the schema is nil. -/
def MCPTool.parameters (t : MCPTool) : Any :=
  match t.toolDef.inputSchema with
  | .null => .map [("type", .string "object"), ("properties", .map [])]
  | schema => schema

/-- `unicode.IsSpace`, the test `strings.TrimSpace` trims by. -/
def isSpace (c : Char) : Bool :=
  c = '\t' || c = '\n' || c = '\x0b' || c = '\x0c' || c = '\r' || c = ' ' ||
  c.toNat = 0x85 || c.toNat = 0xA0 || c.toNat = 0x1680 ||
  (0x2000 ≤ c.toNat && c.toNat ≤ 0x200A) || c.toNat = 0x2028 || c.toNat = 0x2029 ||
  c.toNat = 0x202F || c.toNat = 0x205F || c.toNat = 0x3000

/-- `strings.TrimSpace`. -/
def trimSpace (s : String) : String :=
  String.mk ((s.data.dropWhile isSpace).reverse.dropWhile isSpace).reverse

/-- The routing half of `(*MCPTool).Execute`: the server and the tool a catalog name is sent
to. -/
def routeName (name : String) : Except String (String × String) :=
  match splitN name "__" 2 with
  | [serverName, origToolName] => .ok (serverName, origToolName)
  | _ => .error "invalid MCP tool name format"

/-- The text `Execute` builds from a result: each `"text"` item followed by a newline. -/
def resultText (res : CallToolResult) : String :=
  String.join (res.content.filterMap fun c => if c.type = "text" then some (c.text ++ "\n") else none)

/-- `(*MCPTool).Execute`. -/
def MCPTool.execute (t : MCPTool) (args : List (String × Any)) : ToolResult :=
  match routeName t.toolDef.name with
  | .error e => { err := some e }
  | .ok (serverName, origToolName) =>
    match t.manager.callTool serverName origToolName args with
    | .error e => { err := some e }
    | .ok res =>
      let content := trimSpace (resultText res)
      if res.isError then { err := some ("MCP tool error: " ++ content) }
      else { forLLM := content }

/-! ## Routing a catalog name -/

/-- Routing a name built by the catalog from `s` and `t` gives `(s, t)` back exactly when
`s` contains no `"__"` and does not end in `'_'`. -/
theorem routeName_prefixed_iff (s t : String) :
    routeName (s ++ "__" ++ t) = .ok (s, t) ↔ ¬ ['_', '_'] <:+: s.data ++ ['_'] := by
  rw [← splitN_append_sep_iff s t]
  unfold routeName
  split
  · rename_i a b h
    simp only [h, Except.ok.injEq, Prod.mk.injEq, List.cons.injEq, and_true]
  · rename_i h
    simp only [reduceCtorEq, false_iff]
    exact fun h' => h s t h'

/-- **Routing and uniqueness of catalog names.** Every entry of `GetAllTools()` or of
`GetToolsForWorkspace(w)` is built from a stored server `s` and a tool `t` of it; `Execute`
routes it to `(s.Name, t.Name)` exactly when `s.Name` contains no `"__"` and does not end in
`'_'`; and server names of that form never let two pairs share a catalog name. -/
theorem catalog_routing (m : MCPManager) (w : String) :
    (∀ d ∈ m.getAllTools ++ m.getToolsForWorkspace w, ∃ name s t,
      m.servers.get? name = some s ∧ t ∈ s.tools ∧ d.name = s.name ++ "__" ++ t.name ∧
      (routeName d.name = .ok (s.name, t.name) ↔ ¬ ['_', '_'] <:+: s.name.data ++ ['_'])) ∧
    (∀ s₁ t₁ s₂ t₂ : String, ¬ ['_', '_'] <:+: s₁.data ++ ['_'] →
      ¬ ['_', '_'] <:+: s₂.data ++ ['_'] → s₁ ++ "__" ++ t₁ = s₂ ++ "__" ++ t₂ →
      s₁ = s₂ ∧ t₁ = t₂) := by
  refine ⟨fun d hd => ?_, fun s₁ t₁ s₂ t₂ h₁ h₂ he => ?_⟩
  · have hall : d ∈ m.getAllTools := by
      rcases List.mem_append.mp hd with h | h
      · exact h
      · exact mem_getAllTools_of_mem_getToolsForWorkspace h
    obtain ⟨name, s, hs, -, t, ht, -, rfl⟩ := mem_getAllTools.mp hall
    exact ⟨name, s, t, hs, ht, rfl, routeName_prefixed_iff s.name t.name⟩
  · have r₁ := (routeName_prefixed_iff s₁ t₁).mpr h₁
    rw [he, (routeName_prefixed_iff s₂ t₂).mpr h₂] at r₁
    simp only [Except.ok.injEq, Prod.mk.injEq] at r₁
    exact ⟨r₁.1.symm, r₁.2.symm⟩

/-- Two connected servers whose names and tool names meet at `'_'`. -/
def ambiguousManager : MCPManager :=
  ⟨⟨[("a_", { name := "a_", connected := true, tools := [{ name := "b" }] }),
     ("a", { name := "a", connected := true, tools := [{ name := "_b" }] })], by decide⟩⟩

/-- Server `"a_"` with tool `"b"` and server `"a"` with tool `"_b"` both list `"a___b"`, and
both route to server `"a"`, tool `"_b"`. -/
theorem catalog_name_misroutes :
    ambiguousManager.getAllTools.map (·.name) = ["a___b", "a___b"] ∧
    ambiguousManager.getAllTools.map (fun d => (routeName d.name).toOption) =
      [some ("a", "_b"), some ("a", "_b")] := by
  decide

/-! ## The text of a result -/

/-- The `Text` of each `"text"` item of a result, in order. -/
def textsOf (res : CallToolResult) : List String :=
  res.content.filterMap fun c => if c.type = "text" then some c.text else none

/-- What `Execute` answers once `CallTool` has returned `res`. -/
def toolResultOf (res : CallToolResult) : ToolResult :=
  let content := trimSpace (resultText res)
  if res.isError then { err := some ("MCP tool error: " ++ content) } else { forLLM := content }

theorem execute_eq_toolResultOf {t : MCPTool} {args : List (String × Any)}
    {serverName toolName : String} {res : CallToolResult}
    (hroute : routeName t.toolDef.name = .ok (serverName, toolName))
    (hcall : t.manager.callTool serverName toolName args = .ok res) :
    t.execute args = toolResultOf res := by
  simp only [MCPTool.execute, hroute, hcall, toolResultOf]

theorem resultText_eq (res : CallToolResult) :
    resultText res = String.join ((textsOf res).map (· ++ "\n")) := by
  unfold resultText textsOf
  rw [List.map_filterMap]
  congr 2
  funext c
  split <;> rfl

theorem data_intercalate_go (s : String) :
    ∀ (acc : String) (as : List String),
      (String.intercalate.go acc s as).data = acc.data ++ (as.map fun a => s.data ++ a.data).flatten
  | acc, [] => by simp [String.intercalate.go]
  | acc, a :: as => by simp [String.intercalate.go, data_intercalate_go s _ as]

theorem flatten_map_newline (as : List String) :
    '\n' :: (as.map fun a => a.data ++ ['\n']).flatten =
      (as.map fun a => '\n' :: a.data).flatten ++ ['\n'] := by
  induction as with
  | nil => rfl
  | cons a as ih => simp [ih]

/-- Each text followed by a newline is the texts joined with newlines, and one more. -/
theorem join_map_newline {a : String} {as : List String} :
    String.join ((a :: as).map (· ++ "\n")) = "\n".intercalate (a :: as) ++ "\n" := by
  apply String.ext
  rw [String.data_join, String.data_append, String.intercalate, data_intercalate_go]
  simp only [List.map_cons, List.map_map, Function.comp_def, String.data_append,
    List.flatten_cons, List.append_assoc]
  congr 1
  exact flatten_map_newline as

theorem trimSpace_append_newline (s : String) : trimSpace (s ++ "\n") = trimSpace s := by
  unfold trimSpace
  congr 1
  rw [String.data_append, List.dropWhile_append]
  split
  · rename_i h
    simp [List.isEmpty_iff.mp h, isSpace]
  · simp [isSpace]

/-- **What `Execute` answers for a tool result.** Once `CallTool` has returned `res`, `Execute`
answers `toolResultOf res`: `strings.TrimSpace` of the texts of the `"text"` items joined with
`"\n"`, as `ForLLM`, or in the error when `res.IsError`; and the answer is the same with the
other items removed. -/
theorem execute_result_text (res : CallToolResult) :
    (∀ (t : MCPTool) args serverName toolName,
      routeName t.toolDef.name = .ok (serverName, toolName) →
      t.manager.callTool serverName toolName args = .ok res → t.execute args = toolResultOf res) ∧
    toolResultOf res =
      (if res.isError then { err := some ("MCP tool error: " ++ trimSpace ("\n".intercalate (textsOf res))) }
       else { forLLM := trimSpace ("\n".intercalate (textsOf res)) }) ∧
    toolResultOf res = toolResultOf { res with content := res.content.filter (·.type = "text") } := by
  have htext : trimSpace (resultText res) = trimSpace ("\n".intercalate (textsOf res)) := by
    rw [resultText_eq]
    rcases textsOf res with _ | ⟨a, as⟩
    · rfl
    · rw [join_map_newline, trimSpace_append_newline]
  refine ⟨fun t args _ _ hroute hcall => execute_eq_toolResultOf hroute hcall, ?_, ?_⟩
  · simp only [toolResultOf, htext]
  · have hfilter : textsOf { res with content := res.content.filter (·.type = "text") } =
        textsOf res := by
      simp only [textsOf, List.filterMap_filter]
      congr 1
      funext c
      by_cases hc : c.type = "text" <;> simp [hc]
    simp only [toolResultOf, resultText_eq, hfilter]

/-- A result with a padded text item and an image. -/
def paddedImageResult : CallToolResult :=
  { content := [{ type := "text", text := " a " },
                { type := "image", data := "iVBORw0KGgo=", mimeType := "image/png" }] }

/-- The texts joined are `" a "`, but `Execute` answers `"a"` and nothing of the image. -/
theorem trimmed_text_drops_image :
    "\n".intercalate (textsOf paddedImageResult) = " a " ∧
      toolResultOf paddedImageResult = { forLLM := "a" } := by
  decide

end Picoclaw.Tools
