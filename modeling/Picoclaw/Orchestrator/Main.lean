import Picoclaw.Mcp.Protocol
import Picoclaw.Orchestrator.Family
import Picoclaw.Orchestrator.Mailbox

/-!
# The orchestrator's request loop (`cmd/orchestrator`, `main`)

`main` reads stdin with a default `bufio.Scanner`, decodes each line into a `JSONRPCRequest`,
answers it with the handler its method names, and prints the response as one line. A line that
does not decode is logged to stderr and skipped. The `tools/call` handler serves the mailbox
through `send_message` and `list_messages`.

The libraries enter as they behave. The scanner's token limit, `MaxScanTokenSize` (64 KiB), is
in `scanLines`. The JSON text parser is a parameter `parse`; the model of `encoding/json` starts
from the value it returns. The `uuid.New()` and `time.Now()` a handler draws while serving line
`i` are `draw i`, and the RFC 3339 text of a `time.Time` is a parameter `rfc3339Nano`. The
package's `familyStore` is declared but no handler reads it, so the loop's state is the mailbox.

**The laws.**
- `serve_ids`: every line that decodes gets one response, in input order, carrying the id
  decoded from the line; other lines are skipped. With every line shorter than 64 KiB this is all of `main`
  (`main_answers_each_request`).
- `serve_mailbox`: the loop's mailbox is the mailbox run of the `send_message` and
  `list_messages` calls its requests make, so `Mailbox`'s refinement carries over
  (`serve_refines_log`).
- `main_stops_at_long_line`: a line of 64 KiB or more ends the scan (`Scan` returns false with
  `ErrTooLong`, and the loop exits), so no later line is answered
  (`main_drops_request_after_long_line`).
- `exchange_response_id`: a client request whose id is the clock reading `n` comes back with the
  id `Unmarshal` reads from `n`'s decimal, the nearest float64, printed shortest. That is `n`
  below `2^53` (`exchange_response_id_of_natAbs_lt`), but not for a nanosecond clock reading
  (`orchestrator_rounds_request_id`).
- `failed_calls_leave_store`: in both stores the package declares, a call that returns an error
  leaves the store as it was.

**What it does not establish.** Nothing here connects the orchestrator to `Mcp.Manager`: the
client in this repository builds its requests but never sends them.
-/

namespace Picoclaw.Orchestrator

open Picoclaw.Go Picoclaw.Mcp Picoclaw.Mailbox

/-! ## Handlers -/

/-- The `mcp.InitializeResult` of `handleInitialize`. -/
def initializeResult : Any :=
  .map [("protocolVersion", .string "2024-11-05"), ("capabilities", .map [("tools", .map [])]),
        ("serverInfo", .map [("name", .string "picoclaw-orchestrator"),
                              ("version", .string "1.0.0")])]

/-- `handleInitialize`. -/
def handleInitialize (req : JSONRPCRequest) : JSONRPCResponse :=
  { jsonrpc := "2.0", id := req.id, result := initializeResult }

/-- A string property of an input schema. -/
def stringProperty (description : String) : Any :=
  .map [("description", .string description), ("type", .string "string")]

/-- The `send_message` tool `handleToolsList` advertises. -/
def sendMessageTool : MCPToolDef :=
  { name := "send_message", description := "Send a message to another family member's mailbox.",
    inputSchema := .map [
      ("properties", .map [("content", stringProperty "The message body"),
                           ("from", stringProperty "Who is sending it"),
                           ("to", stringProperty "Who it is going to")]),
      ("required", .slice [.string "from", .string "to", .string "content"]),
      ("type", .string "object")] }

/-- The `list_messages` tool `handleToolsList` advertises. -/
def listMessagesTool : MCPToolDef :=
  { name := "list_messages", description := "List messages in your mailbox.",
    inputSchema := .map [
      ("properties", .map [("user", stringProperty "User whose inbox to list")]),
      ("required", .slice [.string "user"]),
      ("type", .string "object")] }

/-- `handleToolsList`. -/
def handleToolsList (req : JSONRPCRequest) : JSONRPCResponse :=
  { jsonrpc := "2.0", id := req.id,
    result := .map [("tools", .slice [sendMessageTool.toAny, listMessagesTool.toAny])] }

/-- `v, _ := params.Arguments[key].(string)`: the empty string unless a string is there. -/
def stringArgument (arguments : List (String × Any)) (key : String) : String :=
  match arguments.lookup key with
  | some (.string s) => s
  | _ => ""

/-- A `mailbox.Message` as `json.Marshal` writes it. -/
def messageJson (rfc3339Nano : Time → String) (msg : Message) : Json :=
  .object [("id", .string msg.id), ("from", .string msg.«from»), ("to", .string msg.to),
           ("content", .string msg.content), ("read", .bool msg.read),
           ("timestamp", .string (rfc3339Nano msg.timestamp))]

/-- `json.Marshal(msgs)`: a nil slice writes `null`. -/
def messagesText (rfc3339Nano : Time → String) (msgs : List Message) : String :=
  Json.render (match msgs with
    | [] => .null
    | _ => .array (msgs.map (messageJson rfc3339Nano)))

/-- The `switch params.Name` of `handleToolsCall`: the mailbox after the call, the result text
and whether it is an error. -/
def runTool (st : MemoryStore) (draw : String × Time) (rfc3339Nano : Time → String)
    (params : CallToolParams) : MemoryStore × String × Bool :=
  let arg := stringArgument params.arguments
  match params.name with
  | "send_message" =>
    match st.sendMessage draw.1 draw.2 (arg "from") (arg "to") (arg "content") with
    | (st', .error e) => (st', e, true)
    | (st', .ok id) => (st', "Message sent with ID: " ++ id, false)
  | "list_messages" =>
    match st.listMessages (arg "user") with
    | .error e => (st, e, true)
    | .ok msgs => (st, messagesText rfc3339Nano msgs, false)
  | name => (st, "Unknown tool " ++ name, true)

/-- `handleToolsCall`: the params are marshalled and decoded into `CallToolParams`, with the
error dropped. -/
def handleToolsCall (st : MemoryStore) (draw : String × Time) (rfc3339Nano : Time → String)
    (req : JSONRPCRequest) : MemoryStore × JSONRPCResponse :=
  let out := runTool st draw rfc3339Nano (CallToolParams.ofJson req.params.toJson)
  let result : CallToolResult :=
    { content := [{ type := "text", text := out.2.1 }], isError := out.2.2 }
  (out.1, { jsonrpc := "2.0", id := req.id, result := result.toAny })

/-- The answer to a method no handler serves. -/
def methodNotFound (req : JSONRPCRequest) : JSONRPCResponse :=
  { jsonrpc := "2.0", id := req.id, error := some { code := -32601, message := "Method not found" } }

/-- The `switch req.Method` of `main`. -/
def dispatch (st : MemoryStore) (draw : String × Time) (rfc3339Nano : Time → String)
    (req : JSONRPCRequest) : MemoryStore × JSONRPCResponse :=
  match req.method with
  | "initialize" => (st, handleInitialize req)
  | "tools/list" => (st, handleToolsList req)
  | "tools/call" => handleToolsCall st draw rfc3339Nano req
  | _ => (st, methodNotFound req)

/-- Every handler answers with the request's id. -/
theorem dispatch_id (st : MemoryStore) (draw : String × Time) (rfc3339Nano : Time → String)
    (req : JSONRPCRequest) : (dispatch st draw rfc3339Nano req).2.id = req.id := by
  unfold dispatch
  split <;> rfl

/-! ## The scanner and the loop -/

/-- `bufio.MaxScanTokenSize`. -/
def maxScanTokenSize : Nat := 64 * 1024

/-- `bufio.ScanLines`' token: the line without a trailing carriage return. -/
def dropCR (line : String) : String :=
  if line.data.getLast? = some '\r' then String.mk line.data.dropLast else line

/-- The tokens a default `bufio.Scanner` yields from stdin, given as its lines without their
newlines. The buffer holds at most `MaxScanTokenSize` bytes from the start of the current line,
so a line of that many bytes or more fills it before its newline is found: `Scan` returns false
with `ErrTooLong`, and the lines after it are never read. -/
def scanLines : List String → List String
  | [] => []
  | line :: rest =>
    if maxScanTokenSize ≤ line.utf8ByteSize then [] else dropCR line :: scanLines rest

/-- `json.Unmarshal(line, &req)`, given the parser of JSON text. -/
def unmarshalRequest (parse : String → Except String Json) (line : String) :
    Except String JSONRPCRequest :=
  (parse line).bind JSONRPCRequest.ofJson

/-- The loop over the scanned lines from line `i` on: the mailbox after them and the responses
printed, in order. -/
def serve (parse : String → Except String Json) (draw : Nat → String × Time)
    (rfc3339Nano : Time → String) :
    MemoryStore → Nat → List String → MemoryStore × List JSONRPCResponse
  | st, _, [] => (st, [])
  | st, i, line :: rest =>
    match unmarshalRequest parse line with
    | .error _ => serve parse draw rfc3339Nano st (i + 1) rest
    | .ok req =>
      let out := dispatch st (draw i) rfc3339Nano req
      let more := serve parse draw rfc3339Nano out.1 (i + 1) rest
      (more.1, out.2 :: more.2)

/-- `main`: the lines it prints, each response as `json.Marshal` writes it. -/
def main (parse : String → Except String Json) (draw : Nat → String × Time)
    (rfc3339Nano : Time → String) (stdin : List String) : List String :=
  (serve parse draw rfc3339Nano newMemoryStore 0 (scanLines stdin)).2.map
    fun resp => resp.toJson.render

/-- Every line a `send_message` of its text from dad to kid. -/
def sendLineParse (line : String) : Except String Json :=
  .ok (.object [("jsonrpc", .string "2.0"), ("method", .string "tools/call"),
    ("params", .object [("name", .string "send_message"), ("arguments",
      .object [("from", .string "dad"), ("to", .string "kid"), ("content", .string line)])])])

section Loop

variable (parse : String → Except String Json) (draw : Nat → String × Time)
  (rfc3339Nano : Time → String)

/-- **One response per decoded line**, in input order, carrying the id decoded from the line. -/
theorem serve_ids (st : MemoryStore) (i : Nat) (lines : List String) :
    (serve parse draw rfc3339Nano st i lines).2.map (·.id) =
      lines.filterMap fun line => (unmarshalRequest parse line).toOption.map (·.id) := by
  induction lines generalizing st i with
  | nil => rfl
  | cons line rest ih =>
    simp only [serve, List.filterMap_cons]
    cases unmarshalRequest parse line with
    | error e => exact ih st (i + 1)
    | ok req =>
      simp only [List.map_cons, dispatch_id, Except.toOption, Option.map_some', List.cons.injEq,
        true_and]
      exact ih _ (i + 1)

theorem scanLines_of_short (lines : List String)
    (h : ∀ line ∈ lines, line.utf8ByteSize < maxScanTokenSize) :
    scanLines lines = lines.map dropCR := by
  induction lines with
  | nil => rfl
  | cons line rest ih =>
    rw [scanLines, if_neg (Nat.not_le.mpr (h line (List.mem_cons_self _ _))), List.map_cons,
      ih fun l hl => h l (List.mem_cons_of_mem _ hl)]

theorem scanLines_append_long (pre post : List String) {line : String}
    (h : maxScanTokenSize ≤ line.utf8ByteSize) : scanLines (pre ++ line :: post) = scanLines pre := by
  induction pre with
  | nil => simp [scanLines, h]
  | cons l pre ih => rw [List.cons_append, scanLines, scanLines, ih]

/-- **With every line shorter than 64 KiB**, `main` prints one line per line that decodes, in
input order, answering the id decoded from that line (a float64, which need not be the id the
line's text writes: `exchange_response_id`). -/
theorem main_answers_each_request (stdin : List String)
    (h : ∀ line ∈ stdin, line.utf8ByteSize < maxScanTokenSize) :
    ∃ resps : List JSONRPCResponse,
      main parse draw rfc3339Nano stdin = resps.map (·.toJson.render) ∧
      resps.map (·.id) =
        stdin.filterMap fun line => (unmarshalRequest parse (dropCR line)).toOption.map (·.id) :=
  ⟨_, rfl, by rw [serve_ids, scanLines_of_short stdin h, List.filterMap_map]; rfl⟩

/-- **A line of 64 KiB or more ends the loop**: nothing after it is answered. -/
theorem main_stops_at_long_line (pre post : List String) {line : String}
    (h : maxScanTokenSize ≤ line.utf8ByteSize) :
    main parse draw rfc3339Nano (pre ++ line :: post) = main parse draw rfc3339Nano pre := by
  rw [main, main, scanLines_append_long pre post h]

end Loop

theorem utf8ByteSize_replicate_ascii (n : Nat) :
    (String.mk (List.replicate n 'a')).utf8ByteSize = n := by
  show String.utf8ByteSize.go _ = n
  induction n with
  | zero => rfl
  | succ n ih => rw [List.replicate_succ, String.utf8ByteSize.go, ih]; rfl

/-- A line of `MaxScanTokenSize` bytes. -/
def longLine : String := String.mk (List.replicate maxScanTokenSize 'a')

/-- The client's `initialize` request with id 1, as a line. -/
def initializeLine : String := "\x7b\"jsonrpc\":\"2.0\",\"id\":1,\"method\":\"initialize\"\x7d"

/-- After a line of 64 KiB, a well-formed `initialize` request gets no answer, whatever the
parser makes of it. -/
theorem main_drops_request_after_long_line (parse : String → Except String Json)
    (draw : Nat → String × Time) (rfc3339Nano : Time → String) :
    main parse draw rfc3339Nano [longLine, initializeLine] = [] :=
  main_stops_at_long_line parse draw rfc3339Nano [] [initializeLine]
    (utf8ByteSize_replicate_ascii maxScanTokenSize).ge

/-! ## The mailbox the loop keeps -/

/-- The mailbox call a request makes, if any: only `tools/call` of `send_message` or
`list_messages` reaches the store. -/
def mailboxCall? (draw : String × Time) (req : JSONRPCRequest) : Option Mailbox.Call :=
  if req.method = "tools/call" then
    let params := CallToolParams.ofJson req.params.toJson
    let arg := stringArgument params.arguments
    match params.name with
    | "send_message" => some (.sendMessage draw.1 draw.2 (arg "from") (arg "to") (arg "content"))
    | "list_messages" => some (.listMessages (arg "user"))
    | _ => none
  else none

/-- A request changes the mailbox as the mailbox call it makes does. -/
theorem dispatch_mailbox (st : MemoryStore) (draw : String × Time) (rfc3339Nano : Time → String)
    (req : JSONRPCRequest) :
    (dispatch st draw rfc3339Nano req).1 = ((mailboxCall? draw req).map st.apply).getD st := by
  unfold dispatch
  split <;> rename_i hm
  · simp [mailboxCall?, hm]
  · simp [mailboxCall?, hm]
  · simp only [mailboxCall?, hm, if_true]
    unfold handleToolsCall runTool
    split <;> rename_i hn
    · simp only [hn]; rfl
    · simp only [hn]; rfl
    · rfl
  · simp only [mailboxCall?, if_neg hm, Option.map_none', Option.getD_none]

/-- The mailbox calls the lines from line `i` on make, in order. -/
def mailboxCalls (parse : String → Except String Json) (draw : Nat → String × Time) :
    Nat → List String → List Mailbox.Call
  | _, [] => []
  | i, line :: rest =>
    match unmarshalRequest parse line with
    | .error _ => mailboxCalls parse draw (i + 1) rest
    | .ok req => (mailboxCall? (draw i) req).toList ++ mailboxCalls parse draw (i + 1) rest

/-- **The loop's mailbox is the mailbox of the calls its requests make.** -/
theorem serve_mailbox (parse : String → Except String Json) (draw : Nat → String × Time)
    (rfc3339Nano : Time → String) (st : MemoryStore) (i : Nat) (lines : List String) :
    (serve parse draw rfc3339Nano st i lines).1 = st.run (mailboxCalls parse draw i lines) := by
  induction lines generalizing st i with
  | nil => rfl
  | cons line rest ih =>
    simp only [serve, mailboxCalls]
    cases unmarshalRequest parse line with
    | error e => exact ih st (i + 1)
    | ok req =>
      dsimp only
      rw [ih, dispatch_mailbox, MemoryStore.run, MemoryStore.run, List.foldl_append]
      cases mailboxCall? (draw i) req <;> rfl

/-- So, when the drawn ids are fresh, the loop's mailbox refines the log of the messages its
requests send. -/
theorem serve_refines_log (parse : String → Except String Json) (draw : Nat → String × Time)
    (rfc3339Nano : Time → String) (lines : List String)
    (hfresh : FreshSends (mailboxCalls parse draw 0 lines)) :
    Refines (serve parse draw rfc3339Nano newMemoryStore 0 lines).1
      (Log.run (mailboxCalls parse draw 0 lines)) := by
  rw [serve_mailbox]
  exact run_refines _ hfresh

/-- Two lines sent under the ids their positions draw: the mailbox refines the log of both. -/
theorem two_sent_lines_refine_log :
    Refines (serve sendLineParse (fun i => (formatInt i, ⟨i⟩)) (fun _ => "") newMemoryStore 0
        ["Clean your room", "Done!"]).1
      (Log.run (mailboxCalls sendLineParse (fun i => (formatInt i, ⟨i⟩)) 0
        ["Clean your room", "Done!"])) :=
  serve_refines_log sendLineParse _ _ _ (by decide)

/-! ## Request ids -/

/-- One client request through the orchestrator, at the level of JSON values: the request as
`Marshal` writes it, decoded as `main` decodes a line, answered, and written back. -/
def exchange (st : MemoryStore) (draw : String × Time) (rfc3339Nano : Time → String)
    (req : JSONRPCRequest) : Except String Json :=
  (JSONRPCRequest.ofJson req.toJson).map fun r => (dispatch st draw rfc3339Nano r).2.toJson

/-- The id member of a response: the id as `Marshal` writes it, left out when it is nil. -/
theorem response_id_field (resp : JSONRPCResponse) :
    resp.toJson.field? "id" = if resp.id.isNull then none else some resp.id.toJson := by
  obtain ⟨jsonrpc, id, result, error⟩ := resp
  by_cases hid : id.isNull
  · by_cases hr : result.isNull <;> cases error <;>
      simp [JSONRPCResponse.toJson, omitNull, hid, hr, Json.field?, List.lookup_cons]
  · simp [JSONRPCResponse.toJson, omitNull, hid, Json.field?, List.lookup_cons]

/-- **The id a request comes back with**: a client request stamped with the reading `n` is
answered with the float64 that `Unmarshal` reads from `n`'s decimal, printed shortest (and with
no id, were `n` past the largest float64). -/
theorem exchange_response_id (st : MemoryStore) (draw : String × Time) (rfc3339Nano : Time → String)
    (n : Int) (method : String) (params : Any) :
    ∃ resp, exchange st draw rfc3339Nano (createRequest ⟨n⟩ method params) = .ok resp ∧
      resp.field? "id" = (parseFloat64 (formatInt n)).map fun f => .number (formatFloat64 f) := by
  refine ⟨_, by rw [exchange, ofJson_toJson]; rfl, ?_⟩
  rw [response_id_field, dispatch_id]
  simp only [createRequest, generateRequestID, Any.toJson, Json.toAny]
  cases parseFloat64 (formatInt n) <;> rfl

/-- Ids of magnitude below `2^53` come back as they were sent. -/
theorem exchange_response_id_of_natAbs_lt (st : MemoryStore) (draw : String × Time)
    (rfc3339Nano : Time → String) {n : Int} (h : n.natAbs < 2 ^ 53) (method : String)
    (params : Any) :
    (createRequest ⟨n⟩ method params).toJson.field? "id" = some (.number (formatInt n)) ∧
      ∃ resp, exchange st draw rfc3339Nano (createRequest ⟨n⟩ method params) = .ok resp ∧
        resp.field? "id" = some (.number (formatInt n)) := by
  obtain ⟨resp, hx, hid⟩ := exchange_response_id st draw rfc3339Nano n method params
  refine ⟨rfl, resp, hx, hid.trans ?_⟩
  simpa [Option.map_map, Function.comp_def] using
    congrArg (Option.map Json.number) (formatFloat64_parseFloat64_formatInt h)

set_option exponentiation.threshold 2100 in
set_option maxRecDepth 20000 in
/-- A request stamped at `1730000000000000001` ns comes back with the id
`1730000000000000000`, whatever its method and params. -/
theorem orchestrator_rounds_request_id (st : MemoryStore) (draw : String × Time)
    (rfc3339Nano : Time → String) (method : String) (params : Any) :
    (createRequest ⟨1730000000000000001⟩ method params).toJson.field? "id" =
        some (.number "1730000000000000001") ∧
      ∃ resp, exchange st draw rfc3339Nano (createRequest ⟨1730000000000000001⟩ method params) =
          .ok resp ∧ resp.field? "id" = some (.number "1730000000000000000") := by
  refine ⟨rfl, ?_⟩
  obtain ⟨resp, hx, hid⟩ :=
    exchange_response_id st draw rfc3339Nano 1730000000000000001 method params
  have hround : (parseFloat64 (formatInt 1730000000000000001)).map formatFloat64 =
      some "1730000000000000000" := by
    decide
  refine ⟨resp, hx, hid.trans ?_⟩
  simpa [Option.map_map, Function.comp_def] using congrArg (Option.map Json.number) hround

/-! ## The package's stores -/

open Family in
/-- **A failed call changes nothing.** Every call of the family store and of the mailbox that
returns an error has made all its checks before writing, so the store after it is the store
before it. -/
theorem failed_calls_leave_store (s : FamilyStore) (m : MemoryStore) :
    (∀ now user choreID e, (s.completeChore now user choreID).2 = .error e →
      (s.completeChore now user choreID).1 = s) ∧
    (∀ now user choreID approved e, (s.verifyChore now user choreID approved).2 = .error e →
      (s.verifyChore now user choreID approved).1 = s) ∧
    (∀ itemID now user listID content e,
      (s.addListItem itemID now user listID content).2 = .error e →
      (s.addListItem itemID now user listID content).1 = s) ∧
    (∀ now user listID itemID completed e,
      (s.updateListItem now user listID itemID completed).2 = .error e →
      (s.updateListItem now user listID itemID completed).1 = s) ∧
    (∀ user listID e, (s.deleteList user listID).2 = .error e → (s.deleteList user listID).1 = s) ∧
    (∀ user msgID e, (m.readMessage user msgID).2 = .error e → (m.readMessage user msgID).1 = m) :=
  ⟨fun _ _ _ _ => FamilyStore.updateChore_of_error, fun _ _ _ _ _ => FamilyStore.updateChore_of_error,
    fun _ _ _ _ _ _ => FamilyStore.addListItem_of_error,
    fun _ _ _ _ _ _ => FamilyStore.updateListItem_of_error,
    fun _ _ _ => FamilyStore.deleteList_of_error, fun _ _ _ => MemoryStore.readMessage_of_error⟩

end Picoclaw.Orchestrator
