import Picoclaw.Mcp.Manager
import Picoclaw.Go.Runtime

/-!
# JSON-RPC messages (`pkg/mcp/types.go`, `MCPClient.createRequest`)

The MCP types as `encoding/json` writes them (`toJson`, with their `omitempty` members left out
when empty) and reads them (`ofJson`). A client request carries the clock reading in
nanoseconds as its id (`createRequest`); a server that decodes the request into
`JSONRPCRequest`, whose `ID` is an `interface{}`, holds a `float64` instead.

**The law** (`ofJson_toJson`): decoding what `Marshal` wrote gives the request back, but for
its id and params, which come back as `json.Unmarshal` makes an `interface{}` of their JSON.
For an `int64` id that is the float64 `parseFloat64` reads from its decimal.
-/

namespace Picoclaw.Mcp

open Picoclaw.Go

/-- `JSONRPCRequest`; a nil `interface{}` is `.null`. -/
structure JSONRPCRequest where
  jsonrpc : String := ""
  id : Any := .null
  method : String := ""
  params : Any := .null

/-- `JSONRPCError`. -/
structure JSONRPCError where
  code : Int
  message : String
  data : Any := .null

/-- `JSONRPCResponse`; a nil `*JSONRPCError` is `none`. -/
structure JSONRPCResponse where
  jsonrpc : String := ""
  id : Any := .null
  result : Any := .null
  error : Option JSONRPCError := none

/-- `CallToolParams`; a nil map is the empty list. -/
structure CallToolParams where
  name : String := ""
  arguments : List (String × Any) := []

/-! ## Writing -/

/-- An `omitempty` member holding an `interface{}`: left out when nil. -/
def omitNull (key : String) (a : Any) : List (String × Json) :=
  if a.isNull then [] else [(key, a.toJson)]

/-- An `omitempty` member holding a string: left out when empty. -/
def omitEmpty (key value : String) : List (String × Any) :=
  if value = "" then [] else [(key, .string value)]

/-- `json.Marshal` of a request. -/
def JSONRPCRequest.toJson (r : JSONRPCRequest) : Json :=
  .object ([("jsonrpc", .string r.jsonrpc)] ++ omitNull "id" r.id ++
    [("method", .string r.method)] ++ omitNull "params" r.params)

/-- `json.Marshal` of an error object. -/
def JSONRPCError.toJson (e : JSONRPCError) : Json :=
  .object ([("code", .number (formatInt e.code)), ("message", .string e.message)] ++
    omitNull "data" e.data)

/-- `json.Marshal` of a response. -/
def JSONRPCResponse.toJson (r : JSONRPCResponse) : Json :=
  .object ([("jsonrpc", .string r.jsonrpc)] ++ omitNull "id" r.id ++ omitNull "result" r.result ++
    (r.error.map fun e => [("error", e.toJson)]).getD [])

/-- A tool definition as an `interface{}` value. -/
def MCPToolDef.toAny (t : MCPToolDef) : Any :=
  .map ([("name", .string t.name)] ++ omitEmpty "description" t.description ++
    [("inputSchema", t.inputSchema)])

/-- A content item as an `interface{}` value. -/
def ToolContent.toAny (c : ToolContent) : Any :=
  .map ([("type", .string c.type)] ++ omitEmpty "text" c.text ++ omitEmpty "data" c.data ++
    omitEmpty "mimeType" c.mimeType)

/-- A tool result as an `interface{}` value. -/
def CallToolResult.toAny (r : CallToolResult) : Any :=
  .map ((if r.content.isEmpty then [] else [("content", .slice (r.content.map ToolContent.toAny))]) ++
    (if r.isError then [("isError", .bool true)] else []))

/-- Call parameters as an `interface{}` value. -/
def CallToolParams.toAny (p : CallToolParams) : Any :=
  .map ([("name", .string p.name)] ++
    (if p.arguments.isEmpty then [] else [("arguments", .map p.arguments)]))

/-! ## The client's requests -/

/-- `generateRequestID()` at reading `now`: `time.Now().UnixNano()`, an `int64`. -/
def generateRequestID (now : Time) : Any := .int64 now.unixNano

/-- `(*MCPClient).createRequest` at reading `now`. `connectStdio` and `CallTool` build their
`initialize` and `tools/call` requests the same way. -/
def createRequest (now : Time) (method : String) (params : Any) : JSONRPCRequest :=
  { jsonrpc := "2.0", id := generateRequestID now, method := method, params := params }

/-! ## Reading -/

/-- Whether an object key names the member tagged `tag`: `encoding/json` matches keys without
regard to case. The model folds ASCII letters only; Go also folds a few others, such as the
Kelvin sign. -/
def keyMatches (key tag : String) : Bool := String.mk (key.data.map Char.toLower) == tag

/-- A JSON value decoded into a Go `string` field: null leaves the field, a string sets it,
anything else is a type error naming the field. -/
def decodeString (structName tag old : String) : Json → String × Option String
  | .null => (old, none)
  | .string s => (s, none)
  | j => (old, some ("json: cannot unmarshal " ++ j.kind ++ " into Go struct field " ++
      structName ++ "." ++ tag ++ " of type string"))

/-- The members of an object decoded into a struct in order; decoding goes on past a type
error, and the first error is the one `json.Unmarshal` returns. -/
def decodeMembers {α : Type} (decodeField : α → String → Json → α × Option String) :
    α → List (String × Json) → α × Option String
  | a, [] => (a, none)
  | a, (k, j) :: kvs =>
    let (a', e) := decodeField a k j
    let (a'', e') := decodeMembers decodeField a' kvs
    (a'', match e with | some err => some err | none => e')

/-- One member of an object decoded into a `JSONRPCRequest`. -/
def JSONRPCRequest.decodeField (r : JSONRPCRequest) (key : String) (j : Json) :
    JSONRPCRequest × Option String :=
  if keyMatches key "jsonrpc" then
    let (v, e) := decodeString "JSONRPCRequest" "jsonrpc" r.jsonrpc j
    ({ r with jsonrpc := v }, e)
  else if keyMatches key "id" then ({ r with id := j.toAny }, none)
  else if keyMatches key "method" then
    let (v, e) := decodeString "JSONRPCRequest" "method" r.method j
    ({ r with method := v }, e)
  else if keyMatches key "params" then ({ r with params := j.toAny }, none)
  else (r, none)

/-- `json.Unmarshal` into a fresh `JSONRPCRequest`, once the text is parsed. -/
def JSONRPCRequest.ofJson : Json → Except String JSONRPCRequest
  | .null => .ok {}
  | .object kvs =>
    match decodeMembers JSONRPCRequest.decodeField {} kvs with
    | (r, none) => .ok r
    | (_, some e) => .error e
  | j => .error ("json: cannot unmarshal " ++ j.kind ++ " into Go value of type mcp.JSONRPCRequest")

/-- One member of an object decoded into `CallToolParams`: an object is merged into the
arguments map, a null clears it. -/
def CallToolParams.decodeField (p : CallToolParams) (key : String) (j : Json) :
    CallToolParams × Option String :=
  if keyMatches key "name" then
    let (v, e) := decodeString "CallToolParams" "name" p.name j
    ({ p with name := v }, e)
  else if keyMatches key "arguments" then
    match j with
    | .null => ({ p with arguments := [] }, none)
    | .object kvs =>
      let merged := (Json.toAnyFields kvs).foldl (fun m kv => GoMap.upsert kv.1 kv.2 m) p.arguments
      ({ p with arguments := merged }, none)
    | j => (p, some ("json: cannot unmarshal " ++ j.kind ++
        " into Go struct field CallToolParams.arguments of type map[string]interface \x7b\x7d"))
  else (p, none)

/-- `json.Unmarshal` into a fresh `CallToolParams` with its error dropped, as `handleToolsCall`
does: what decoded before and after a type error stays. -/
def CallToolParams.ofJson : Json → CallToolParams
  | .object kvs => (decodeMembers CallToolParams.decodeField {} kvs).1
  | _ => {}

/-- **Reading back what `Marshal` wrote**: the request, with its id and params as
`json.Unmarshal` makes an `interface{}` of their JSON. -/
theorem ofJson_toJson (r : JSONRPCRequest) :
    JSONRPCRequest.ofJson r.toJson =
      .ok { r with id := r.id.toJson.toAny, params := r.params.toJson.toAny } := by
  obtain ⟨jsonrpc, id, method, params⟩ := r
  by_cases hid : id.isNull <;> by_cases hp : params.isNull
  · obtain rfl := Any.eq_null_of_isNull hid
    obtain rfl := Any.eq_null_of_isNull hp
    rfl
  · obtain rfl := Any.eq_null_of_isNull hid
    simp only [JSONRPCRequest.toJson, omitNull, hp]
    rfl
  · obtain rfl := Any.eq_null_of_isNull hp
    simp only [JSONRPCRequest.toJson, omitNull, hid]
    rfl
  · simp only [JSONRPCRequest.toJson, omitNull, hid, hp]
    rfl

end Picoclaw.Mcp
