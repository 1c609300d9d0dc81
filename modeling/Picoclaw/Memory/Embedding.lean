import Picoclaw.Go.Map
import Picoclaw.Go.Strings
import Picoclaw.Go.Json

/-!
# The embedding client (`pkg/memory/embedding`, `Client`)

`NewClient` fills in a client from the embedding config: a timeout of 30 seconds when none is
set, and for an empty base URL the endpoint of the provider when it is `"openai"` or `"ollama"`
(in any case), with the trailing `'/'`s trimmed. `Embed` posts `{"model", "input"}` to
`<base>/embeddings`, with `"options": {"num_ctx"}` and `"keep_alive"` when the endpoint is an
Ollama one, and returns the first embedding of a 200 answer. `Dimension` guesses the vector size
from the model's name.

The HTTP side is a parameter: for the request `Embed` builds, the error of
`NewRequestWithContext` or of `Do`, or the status and what `io.ReadAll` read. `json.Unmarshal`
of the answer into its `data` is a parameter too, giving each entry's `embedding`, and so is
`string(body)` of the answer's bytes.

**The laws.**
- `newClient_apiBase`: the base has no trailing `'/'`, and is the configured one or the
  provider's endpoint.
- `requestBody_keys`: the body holds `"model"` and `"input"`, and the Ollama keys only for an
  Ollama endpoint, each under its setting.
- `embed_eq_ok_iff`: `Embed` returns a vector exactly when the answer is a 200 whose first
  entry has it.
- `openai_request`: a client for the OpenAI provider without a base URL posts every text to
  `https://api.openai.com/v1/embeddings` with only the model and the text, whatever Ollama
  settings the config holds.
-/

namespace Picoclaw.Embedding

open Picoclaw.Go

/-- `config.EmbeddingConfig`, the fields `NewClient` reads. -/
structure EmbeddingConfig where
  provider : String := ""
  model : String := ""
  apiKey : String := ""
  baseURL : String := ""
  timeout : Int := 0
  chunkSize : Int := 0
  keepAlive : String := ""
  numCtx : Int := 0

/-- `Client`; its `http.Client` by the timeout, in seconds. -/
structure Client where
  provider : String
  model : String
  apiKey : String
  apiBase : String
  timeout : Int
  chunkSize : Int
  keepAlive : String
  numCtx : Int

/-- The base URL `NewClient` picks before trimming: the configured one, or the provider's
endpoint. -/
def defaultBase (cfg : EmbeddingConfig) : String :=
  if cfg.baseURL = "" then
    if equalFoldASCII cfg.provider "openai" then "https://api.openai.com/v1"
    else if equalFoldASCII cfg.provider "ollama" then "http://localhost:11434/v1"
    else ""
  else cfg.baseURL

/-- `NewClient`. -/
def newClient (cfg : EmbeddingConfig) : Client where
  provider := cfg.provider
  model := cfg.model
  apiKey := cfg.apiKey
  apiBase := trimRight (defaultBase cfg) "/"
  timeout := if cfg.timeout ≤ 0 then 30 else cfg.timeout
  chunkSize := cfg.chunkSize
  keepAlive := cfg.keepAlive
  numCtx := cfg.numCtx

/-- The request `Embed` sends: a POST of the JSON body to the URL, with
`Content-Type: application/json` and the `Authorization` header when there is one. -/
structure Request where
  url : String
  body : GoMap String Any
  authorization : Option String

/-- What the HTTP side answers. -/
inductive Exchange where
  /-- `http.NewRequestWithContext` failed. -/
  | createFailed (err : String)
  /-- `c.client.Do` failed. -/
  | sendFailed (err : String)
  /-- A status, and the body `io.ReadAll` read, or its error. -/
  | response (status : Nat) (body : Except String (List UInt8))

namespace Client

/-- Whether `Embed` adds the Ollama options: the lowered base names `localhost:11434`, or the
provider is `"ollama"`. -/
def isOllama (c : Client) : Bool :=
  contains (asciiLower c.apiBase) "localhost:11434" || equalFoldASCII c.provider "ollama"

/-- `reqBody` of `Embed`. -/
def requestBody (c : Client) (text : String) : GoMap String Any :=
  let body : GoMap String Any := GoMap.ofList [("model", .string c.model), ("input", .string text)]
  if c.isOllama then
    let options : GoMap String Any :=
      if c.numCtx > 0 then GoMap.empty.set "num_ctx" (.int c.numCtx) else GoMap.empty
    let body := if options.entries.length > 0 then body.set "options" (.map options.entries) else body
    if c.keepAlive ≠ "" then body.set "keep_alive" (.string c.keepAlive) else body
  else body

/-- The request `Embed` builds for `text`. -/
def embedRequest (c : Client) (text : String) : Request where
  url := c.apiBase ++ "/embeddings"
  body := c.requestBody text
  authorization := if c.apiKey ≠ "" then some ("Bearer " ++ c.apiKey) else none

/-- `Embed`, with the HTTP side `http`, `json.Unmarshal` of the answer into the embeddings of its
`data`, and `string(body)`. -/
def embed (c : Client) (http : Request → Exchange)
    (unmarshal : List UInt8 → Except String (List (List Float))) (bodyText : List UInt8 → String)
    (text : String) : Except String (List Float) :=
  match http (c.embedRequest text) with
  | .createFailed err => .error ("failed to create request: " ++ err)
  | .sendFailed err => .error ("failed to send request: " ++ err)
  | .response _ (.error err) => .error ("failed to read response: " ++ err)
  | .response status (.ok body) =>
    if status ≠ 200 then
      .error ("embedding API request failed: status=" ++ formatInt status ++ " body=" ++
        bodyText body)
    else
      match unmarshal body with
      | .error err => .error ("failed to unmarshal response: " ++ err)
      | .ok [] => .error "no embedding data returned"
      | .ok (embedding :: _) => .ok embedding

/-- `Dimension`. -/
def dimension (c : Client) : Nat :=
  if contains c.model "small" then 1536
  else if contains c.model "large" then 3072
  else if contains c.model "ada-002" then 1536
  else 1536

end Client

/-! ## The base URL -/

/-- `TrimRight` leaves no character of the cutset at the end. -/
theorem getLast?_trimRight (s cutset : String) {c : Char} (h : (trimRight s cutset).data.getLast? = some c) :
    c ∉ cutset.data := by
  simp only [trimRight, List.getLast?_reverse] at h
  have hmem := List.head?_dropWhile_not (· ∈ cutset.data) s.data.reverse
  rw [h] at hmem
  simpa using hmem

/-- **The client's base has no trailing `'/'`**, and is the configured base or the provider's
endpoint with the `'/'`s trimmed. -/
theorem newClient_apiBase (cfg : EmbeddingConfig) :
    (newClient cfg).apiBase = trimRight (defaultBase cfg) "/" ∧
      (newClient cfg).apiBase.data.getLast? ≠ some '/' :=
  ⟨rfl, fun h => getLast?_trimRight _ _ h (List.mem_singleton_self _)⟩

/-! ## The request -/

/-- **The keys of the request body**: `"model"` and `"input"`, then `"options"` exactly for an
Ollama endpoint with a positive `num_ctx`, and `"keep_alive"` exactly for an Ollama endpoint
with a keep-alive. -/
theorem requestBody_keys (c : Client) (text : String) :
    (c.requestBody text).keys =
      ["model", "input"] ++ (if c.isOllama ∧ c.numCtx > 0 then ["options"] else []) ++
        (if c.isOllama ∧ c.keepAlive ≠ "" then ["keep_alive"] else []) := by
  unfold Client.requestBody
  by_cases ho : c.isOllama = true
  · by_cases hn : c.numCtx > 0 <;> by_cases hk : c.keepAlive ≠ "" <;>
      simp [ho, hn, hk, GoMap.keys, GoMap.ofList, GoMap.set, GoMap.upsert, GoMap.empty]
  · simp [ho, GoMap.keys, GoMap.ofList, GoMap.set, GoMap.upsert, GoMap.empty]

/-- **`Embed` returns a vector exactly when the answer is a 200 whose first entry has it.** -/
theorem embed_eq_ok_iff (c : Client) (http : Request → Exchange)
    (unmarshal : List UInt8 → Except String (List (List Float))) (bodyText : List UInt8 → String)
    (text : String) (v : List Float) :
    c.embed http unmarshal bodyText text = .ok v ↔
      ∃ body rest, http (c.embedRequest text) = .response 200 (.ok body) ∧
        unmarshal body = .ok (v :: rest) := by
  unfold Client.embed
  constructor
  · intro h
    split at h
    · cases h
    · cases h
    · cases h
    · next status body hhttp =>
      split_ifs at h with hs
      split at h
      · cases h
      · cases h
      · next rest hun =>
        cases h
        exact ⟨body, rest, (not_not.mp hs) ▸ hhttp, hun⟩
  · rintro ⟨body, rest, hhttp, hun⟩
    simp only [hhttp, ne_eq, not_true_eq_false, if_false, hun]

/-- **An OpenAI client without a base URL posts to OpenAI with only the model and the text**,
whatever the config's Ollama settings. -/
theorem openai_request (cfg : EmbeddingConfig) (hprovider : equalFoldASCII cfg.provider "openai")
    (hbase : cfg.baseURL = "") (text : String) :
    (newClient cfg).embedRequest text =
      { url := "https://api.openai.com/v1/embeddings",
        body := GoMap.ofList [("model", .string cfg.model), ("input", .string text)],
        authorization := if cfg.apiKey ≠ "" then some ("Bearer " ++ cfg.apiKey) else none } := by
  have hollama : equalFoldASCII cfg.provider "ollama" = false := by
    unfold equalFoldASCII at hprovider ⊢
    rw [decide_eq_true_iff] at hprovider
    rw [hprovider]
    decide
  have hbase' : (newClient cfg).apiBase = "https://api.openai.com/v1" := by
    simp only [newClient, defaultBase, hbase, if_true, hprovider]
    decide
  have hnot : (newClient cfg).isOllama = false := by
    simp only [Client.isOllama, hbase', show (newClient cfg).provider = cfg.provider from rfl,
      hollama, Bool.or_false]
    decide
  simp only [Client.embedRequest, Client.requestBody, hnot, hbase', Bool.false_eq_true, if_false]
  rfl

/-- An OpenAI config that also sets Ollama's context size and keep-alive. -/
def openaiWithOllamaSettings : EmbeddingConfig :=
  { provider := "OpenAI", model := "text-embedding-3-small", numCtx := 4096, keepAlive := "5m" }

/-- Its client posts `"hi"` with the model and the text only. -/
theorem openai_client_drops_ollama_settings :
    (newClient openaiWithOllamaSettings).embedRequest "hi" =
      { url := "https://api.openai.com/v1/embeddings",
        body := GoMap.ofList [("model", .string "text-embedding-3-small"), ("input", .string "hi")],
        authorization := none } :=
  openai_request openaiWithOllamaSettings (by decide) rfl "hi"

/-! ## The vector size -/

/-- **`Dimension` is 3072 for a `"large"` model that is not a `"small"` one, and 1536
otherwise.** -/
theorem dimension_eq (c : Client) :
    c.dimension = if contains c.model "large" ∧ ¬contains c.model "small" then 3072 else 1536 := by
  unfold Client.dimension
  split_ifs <;> simp_all

end Picoclaw.Embedding
