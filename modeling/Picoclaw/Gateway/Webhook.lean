import Picoclaw.Go.Map
import Picoclaw.Go.Strings

/-!
# The gateway's webhook endpoint (`webhookHandler`)

The gateway serves `/webhook/` with `webhookHandler`. A request must be a `POST` whose path,
trimmed of `'/'` at both ends and split at `'/'`, is `webhook` and one id; the id must name a
configured webhook, and the body must read. A webhook of format `"github"` then checks the
`X-Hub-Signature-256` header: missing is `401`, anything but `sha256=<mac>` is `400`, and a
`<mac>` other than the lower-case hex of HMAC-SHA256 of the body under the webhook's secret is
`401`. A request that passes is handed to `ProcessDirectWithChannel` once, with the payload
text, the session key of the webhook's agent and the channel `"webhook"`.

HMAC-SHA256, `routing.BuildAgentPeerSessionKey` (not in the sources) and the processor are the
parameters of `WebhookEnv`; `config.WebhookConfig` (not in the sources either) is modelled by
the three fields the handler reads. Go strings the handler builds from the body are byte lists,
so every body is one. `Header.Get` canonicalises its key, so `X-GitHub-Event` is looked up as
`X-Github-Event`; headers are stored under canonical keys.

**The law** (`github_webhook_gate`): for a `"github"` webhook stored under `id`, a `POST` to
`/webhook/<id>` is routed to it exactly when `id` is non-empty and has no `'/'`; for such an
id it reaches the processor exactly when the header is `"sha256=" ++ hexEncode (HMAC(k, b))`,
and otherwise answers `401` or `400` without calling it. A webhook whose id contains `'/'` is
never reached through its own path (`slashed_id_is_not_found`).
-/

namespace Picoclaw.Gateway

open Picoclaw.Go

/-- `config.WebhookConfig`: the fields the handler reads. -/
structure WebhookConfig where
  format : String := ""
  secret : String := ""
  agent : String := ""

/-- An HTTP request as the handler reads it: the method, `URL.Path`, the headers by canonical
key, and what `io.ReadAll(r.Body)` returns. -/
structure Request where
  method : String
  path : String
  header : GoMap String (List String) := GoMap.empty
  body : Except String (List UInt8)

/-- `r.Header.Get(key)` for a canonical `key`: its first value, `""` when there is none. -/
def Request.headerGet (r : Request) (key : String) : String :=
  match r.header.get? key with
  | some (v :: _) => v
  | _ => ""

/-- `routing.SessionKeyParams` with a direct peer; `DMScope` is `DMScopePerChannelPeer` on every
call the handler makes. -/
structure SessionKeyParams where
  agentID : String
  channel : String
  peerKind : String
  peerID : String

/-- One `ProcessDirectWithChannel(ctx, content, sessionKey, channel, chatID)` call; the content
is a Go string built from the body, so a byte list. -/
structure ProcessCall where
  content : List UInt8
  sessionKey : String
  channel : String
  chatID : String

/-- What the handler writes: `http.Error(w, text, code)`, or `200` with the body `"OK"`. -/
inductive Response where
  | error (text : String) (code : Nat)
  | ok
  deriving DecidableEq, Repr

/-- What the handler depends on besides the configuration: HMAC-SHA256 of a message under a key,
`BuildAgentPeerSessionKey`, and the processor. -/
structure WebhookEnv where
  hmacSHA256 : List UInt8 → List UInt8 → List UInt8
  buildAgentPeerSessionKey : SessionKeyParams → String
  process : ProcessCall → Except String String

/-- The path check: `strings.Split(strings.Trim(path, "/"), "/")` must be `webhook` and one
id. -/
def webhookRoute (path : String) : Option String :=
  match split (trim path "/") "/" with
  | ["webhook", webhookID] => some webhookID
  | _ => none

/-- The signature check of a `"github"` webhook: the error it answers, if any. `hmac.Equal`
compares the bytes of the two strings, so it is string equality. -/
def verifySignature (env : WebhookEnv) (secret sigHeader : String) (body : List UInt8) :
    Except (String × Nat) Unit :=
  if sigHeader = "" then .error ("Missing signature", 401)
  else
    match splitN sigHeader "=" 2 with
    | ["sha256", mac] =>
      if mac = hexEncode (env.hmacSHA256 (bytes secret) body) then .ok ()
      else .error ("Invalid signature", 401)
    | _ => .error ("Invalid signature format", 400)

/-- The payload text: the event and the body for `"github"`, the body alone otherwise. -/
def payload (webhook : WebhookConfig) (r : Request) (body : List UInt8) : List UInt8 :=
  if webhook.format = "github" then
    bytes ("GitHub Webhook Event: " ++ r.headerGet "X-Github-Event" ++ "\nPayload: ") ++ body
  else bytes "Webhook Event: " ++ body

/-- The call the handler makes for a request that passed its checks. -/
def processCall (env : WebhookEnv) (webhookID : String) (webhook : WebhookConfig) (r : Request)
    (body : List UInt8) : ProcessCall :=
  let agentID := if webhook.agent = "" then "default" else webhook.agent
  let sessionKey := env.buildAgentPeerSessionKey
    { agentID := agentID, channel := "webhook", peerKind := "direct", peerID := webhookID }
  { content := payload webhook r body, sessionKey := sessionKey, channel := "webhook",
    chatID := webhookID }

/-- `webhookHandler(processor, cfg)` on one request: the processor call it makes, if any, and
the response. -/
def webhookHandler (env : WebhookEnv) (webhooks : GoMap String WebhookConfig) (r : Request) :
    Option ProcessCall × Response :=
  if r.method ≠ "POST" then (none, .error "Method not allowed" 405)
  else
    match webhookRoute r.path with
    | none => (none, .error "Not found" 404)
    | some webhookID =>
      match webhooks.get? webhookID with
      | none => (none, .error "Webhook not found" 404)
      | some webhook =>
        match r.body with
        | .error _ => (none, .error "Error reading body" 500)
        | .ok body =>
          let checked : Except (String × Nat) Unit :=
            if webhook.format = "github" then
              verifySignature env webhook.secret (r.headerGet "X-Hub-Signature-256") body
            else .ok ()
          match checked with
          | .error (text, code) => (none, .error text code)
          | .ok () =>
            let call := processCall env webhookID webhook r body
            match env.process call with
            | .error _ => (some call, .error "Internal server error" 500)
            | .ok _ => (some call, .ok)

/-! ## Routing -/

/-- Trimming `'/'` off `"/webhook/" ++ id` leaves `"webhook/" ++ id` when `id` is non-empty and
does not end in `'/'`. -/
theorem trim_webhook_path {id : String} (hne : id ≠ "") (hslash : '/' ∉ id.data) :
    trim ("/webhook/" ++ id) "/" = "webhook/" ++ id := by
  obtain ⟨c, cs, hcs⟩ : ∃ c cs, id.data.reverse = c :: cs :=
    List.exists_cons_of_ne_nil (by simpa [String.ext_iff] using hne)
  have hc : c ≠ '/' := fun e =>
    hslash (List.mem_reverse.mp (hcs ▸ e ▸ List.mem_cons_self _ _))
  have hW : ("webhook/".data.dropWhile fun x => decide (x ∈ "/".data)) = "webhook/".data := by
    decide
  apply String.ext
  show ((('/' :: ("webhook/".data ++ id.data)).dropWhile fun x => decide (x ∈ "/".data)).reverse
      |>.dropWhile fun x => decide (x ∈ "/".data)).reverse = "webhook/".data ++ id.data
  rw [List.dropWhile_cons_of_pos (by decide), List.dropWhile_append, hW, if_neg (by decide),
    List.reverse_append, hcs, List.cons_append, List.dropWhile_cons_of_neg (by simpa using hc),
    ← List.cons_append, ← hcs, ← List.reverse_append, List.reverse_reverse]

/-- **A path reaches the webhook stored under `id`** exactly when `id` is non-empty and has no
`'/'`. -/
theorem webhookRoute_eq_some_iff (id : String) :
    webhookRoute ("/webhook/" ++ id) = some id ↔ id ≠ "" ∧ '/' ∉ id.data := by
  constructor
  · intro h
    refine ⟨by rintro rfl; exact absurd h (by decide), fun hmem => ?_⟩
    unfold webhookRoute at h
    rw [show "/" = (⟨['/']⟩ : String) from rfl, split_eq_splitOn] at h
    split at h
    · rename_i x hsplit
      cases h
      have hx : id ∈ (((trim ("/webhook/" ++ id) "/").data.splitOn '/').map String.mk) := by
        rw [hsplit]; simp
      obtain ⟨p, hp, rfl⟩ := List.mem_map.mp hx
      exact not_mem_of_mem_splitOn hp hmem
    · cases h
  · rintro ⟨hne, hslash⟩
    unfold webhookRoute
    rw [trim_webhook_path hne hslash, show "/" = (⟨['/']⟩ : String) from rfl, split_eq_splitOn,
      String.data_append, show "webhook/".data = "webhook".data ++ ['/'] from rfl,
      List.append_assoc, List.singleton_append, splitOn_append_cons, splitOn_of_not_mem hslash]
    rfl

/-! ## The signature -/

/-- `SplitN(h, "=", 2)` is `["sha256", mac]` exactly when `h` is `"sha256=" ++ mac`. -/
theorem splitN_sha256_iff (h mac : String) :
    splitN h "=" 2 = ["sha256", mac] ↔ h = "sha256=" ++ mac := by
  constructor
  · intro hs
    have hpieces : splitNChars h.data "=".data 2 = ["sha256".data, mac.data] := by
      have := congrArg (List.map String.data) hs
      rwa [splitN, List.map_map, show String.data ∘ String.mk = id from rfl, List.map_id] at this
    apply String.ext
    rw [splitNChars_two_eq hpieces]
    rfl
  · rintro rfl
    have key := splitNChars_two_append_sep_iff (show ['='] ≠ [] by decide) "sha256".data mac.data
    simp only [splitN]
    rw [show ("sha256=" ++ mac).data = "sha256".data ++ ['='] ++ mac.data from rfl,
      key.mpr (by decide)]
    rfl

/-- **The signature check passes exactly for `"sha256=" ++ hex(HMAC(secret, body))`**, and
otherwise answers `401` for a missing or wrong MAC and `400` for a malformed header. -/
theorem verifySignature_eq_ok_iff (env : WebhookEnv) (secret sigHeader : String)
    (body : List UInt8) :
    (verifySignature env secret sigHeader body = .ok () ↔
      sigHeader = "sha256=" ++ hexEncode (env.hmacSHA256 (bytes secret) body)) ∧
    ∀ e, verifySignature env secret sigHeader body = .error e →
      e = ("Missing signature", 401) ∨ e = ("Invalid signature format", 400) ∨
        e = ("Invalid signature", 401) := by
  unfold verifySignature
  split_ifs with hempty
  · refine ⟨⟨nofun, fun h => absurd (hempty ▸ h) (by simp [String.ext_iff])⟩, ?_⟩
    rintro e ⟨⟩
    exact .inl rfl
  · split
    · rename_i mac hs
      rw [splitN_sha256_iff] at hs
      subst hs
      split_ifs with hmac
      · exact ⟨⟨fun _ => by rw [hmac], fun _ => rfl⟩, nofun⟩
      · refine ⟨⟨nofun, fun h => absurd (String.ext (List.append_cancel_left
          (congrArg String.data h))) hmac⟩, ?_⟩
        rintro e ⟨⟩
        exact .inr (.inr rfl)
    · rename_i hs
      refine ⟨⟨nofun, fun h => absurd ((splitN_sha256_iff _ _).mpr h) (hs _)⟩, ?_⟩
      rintro e ⟨⟩
      exact .inr (.inl rfl)

/-! ## The gate -/

/-- A `POST` routed to a stored `"github"` webhook whose body reads is decided by the signature
check alone. -/
theorem webhookHandler_of_github (env : WebhookEnv) (webhooks : GoMap String WebhookConfig)
    {r : Request} {id : String} {wh : WebhookConfig} {body : List UInt8}
    (hpost : r.method = "POST") (hroute : webhookRoute r.path = some id)
    (hwh : webhooks.get? id = some wh) (hbody : r.body = .ok body) (hgithub : wh.format = "github") :
    webhookHandler env webhooks r =
      match verifySignature env wh.secret (r.headerGet "X-Hub-Signature-256") body with
      | .error (text, code) => (none, .error text code)
      | .ok () =>
        match env.process (processCall env id wh r body) with
        | .error _ => (some (processCall env id wh r body), .error "Internal server error" 500)
        | .ok _ => (some (processCall env id wh r body), .ok) := by
  simp only [webhookHandler, hpost, hroute, hwh, hbody, hgithub, ne_eq, not_true_eq_false,
    if_false, if_true]

/-- **The `"github"` webhook gate.** For a `"github"` webhook stored under `id`, a `POST` to
`/webhook/<id>` is routed to it exactly when `id` is non-empty and has no `'/'`. For such an
id, the request reaches the processor exactly when `X-Hub-Signature-256` is
`"sha256=" ++ hexEncode (HMAC-SHA256(secret, body))`; any other header (absent, malformed or with
another MAC) is answered `401` or `400` and calls nothing. -/
theorem github_webhook_gate (env : WebhookEnv) (webhooks : GoMap String WebhookConfig)
    (id : String) (wh : WebhookConfig) (header : GoMap String (List String)) (body : List UInt8)
    (hwh : webhooks.get? id = some wh) (hgithub : wh.format = "github") :
    let r : Request := { method := "POST", path := "/webhook/" ++ id, header := header,
                         body := .ok body }
    let sig := "sha256=" ++ hexEncode (env.hmacSHA256 (bytes wh.secret) body)
    (webhookRoute r.path = some id ↔ id ≠ "" ∧ '/' ∉ id.data) ∧
    (id ≠ "" → '/' ∉ id.data →
      ((webhookHandler env webhooks r).1.isSome ↔ r.headerGet "X-Hub-Signature-256" = sig) ∧
      (r.headerGet "X-Hub-Signature-256" ≠ sig → (webhookHandler env webhooks r).1 = none ∧
        ((webhookHandler env webhooks r).2 = .error "Missing signature" 401 ∨
          (webhookHandler env webhooks r).2 = .error "Invalid signature format" 400 ∨
          (webhookHandler env webhooks r).2 = .error "Invalid signature" 401))) := by
  intro r sig
  refine ⟨webhookRoute_eq_some_iff id, fun hne hslash => ?_⟩
  have hh := webhookHandler_of_github env webhooks (r := r) rfl
    ((webhookRoute_eq_some_iff id).mpr ⟨hne, hslash⟩) hwh rfl hgithub
  obtain ⟨hok, herr⟩ :=
    verifySignature_eq_ok_iff env wh.secret (r.headerGet "X-Hub-Signature-256") body
  rw [hh, ← hok]
  rcases hv : verifySignature env wh.secret (r.headerGet "X-Hub-Signature-256") body with
    ⟨text, code⟩ | ⟨⟨⟩⟩
  · refine ⟨by simp, fun _ => ⟨rfl, ?_⟩⟩
    rcases herr _ hv with h | h | h <;> cases h <;> simp
  · exact ⟨by cases env.process (processCall env id wh r body) <;> simp,
      fun h => absurd (hok.mp hv) h⟩

/-- The test's `"github"` webhook. -/
def githubTestConfig : WebhookConfig := { format := "github", secret := "my_secret", agent := "my_agent" }

/-- The test's configuration, with the webhook stored under `"github-id"`. -/
def testWebhooks : GoMap String WebhookConfig := GoMap.empty.set "github-id" githubTestConfig

/-- An environment with a stand-in MAC (the key, then the message) and a processor that
answers `"ok"`. -/
def standInEnv : WebhookEnv := ⟨fun key msg => key ++ msg, fun p => p.agentID, fun _ => .ok "ok"⟩

/-- The test's webhook: a `POST` with the body `push` reaches the processor exactly when its
header carries the MAC of `push`. -/
theorem github_id_reaches_processor_iff :
    (testWebhooks.get? "github-id" = some githubTestConfig ∧ githubTestConfig.format = "github") ∧
    ((webhookHandler standInEnv testWebhooks
        { method := "POST", path := "/webhook/" ++ "github-id", header := GoMap.empty,
          body := .ok (bytes "push") }).1.isSome ↔
      ({ method := "POST", path := "/webhook/" ++ "github-id", header := GoMap.empty,
         body := .ok (bytes "push") } : Request).headerGet "X-Hub-Signature-256" =
        "sha256=" ++ hexEncode (standInEnv.hmacSHA256 (bytes githubTestConfig.secret) (bytes "push"))) :=
  ⟨⟨rfl, rfl⟩, ((github_webhook_gate standInEnv testWebhooks "github-id" githubTestConfig GoMap.empty
    (bytes "push") rfl rfl).2 (by decide) (by decide)).1⟩

/-- A `"github"` webhook stored under `"a/b"`, holding secret `"k"`. -/
def slashedWebhooks : GoMap String WebhookConfig :=
  GoMap.empty.set "a/b" { format := "github", secret := "k", agent := "main" }

/-- A `POST` to `/webhook/a/b` answers `404` and calls nothing, whatever its signature: the
path splits into three parts. -/
theorem webhookHandler_slashed_path (env : WebhookEnv) (header : GoMap String (List String))
    (body : List UInt8) :
    webhookHandler env slashedWebhooks
      { method := "POST", path := "/webhook/a/b", header := header, body := .ok body } =
      (none, .error "Not found" 404) := by
  have : webhookRoute "/webhook/a/b" = none := by decide
  simp [webhookHandler, this]

/-- A `POST` of `push` to `/webhook/a/b`, signed with the MAC of `push` under `"k"`. -/
def signedSlashedRequest : Request :=
  { method := "POST", path := "/webhook/a/b",
    header := GoMap.empty.set "X-Hub-Signature-256"
      ["sha256=" ++ hexEncode (standInEnv.hmacSHA256 (bytes "k") (bytes "push"))],
    body := .ok (bytes "push") }

/-- **A correctly signed request never reaches a webhook whose id holds `'/'`**: the webhook
is stored, the header is the right MAC, and the answer is still `404`. -/
theorem slashed_id_is_not_found :
    (slashedWebhooks.get? "a/b").map (·.secret) = some "k" ∧
    signedSlashedRequest.headerGet "X-Hub-Signature-256" =
      "sha256=" ++ hexEncode (standInEnv.hmacSHA256 (bytes "k") (bytes "push")) ∧
    webhookHandler standInEnv slashedWebhooks signedSlashedRequest =
      (none, .error "Not found" 404) :=
  ⟨rfl, rfl, webhookHandler_slashed_path standInEnv _ _⟩

end Picoclaw.Gateway
