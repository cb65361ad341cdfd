import EdgeLink.Codec.Delta
import EdgeLink.Codec.JsValue
import EdgeLink.Foundations.FixedWindow
import EdgeLink.Foundations.OrderedMap

/-!
# Access to the management API

The middlewares of `routes.ts` that every request passes: the rate limit, by the address of the
client, and the check of the management token, whose decisions are counted.

* `requests_limited`: what the rate limit promises to every client, whatever the others do.
* `decisions_tallied`: the counters are the exact tally of the decisions.
-/

namespace EdgeLink

/-! ## Requests -/

/-- The value of a header: `undefined`, a string, or an array of strings. -/
inductive HeaderValue where
  | absent
  | one (text : String)
  | many (texts : List String)

/-- What the middlewares read of a request. -/
structure RouteRequest where
  /-- the setting `trust proxy` of the application -/
  trustProxy : Bool := false
  headers : List (String × HeaderValue) := []
  ip : Option String := none
  remoteAddress : Option String := none

namespace RouteRequest

def header (req : RouteRequest) (name : String) : HeaderValue :=
  (req.headers.lookup name).getD .absent

end RouteRequest

/-- The first value that is not blank. -/
def getFirstHeaderValue : HeaderValue → Option String
  | .absent => none
  | .one text => if trim text = "" then none else some text
  | .many texts => texts.find? fun text => trim text ≠ ""

/-! ## The rate limit -/

def RATE_LIMIT_WINDOW : Time := 60000

def RATE_LIMIT_MAX_REQUESTS : ℕ := 120

structure RateLimitData where
  count : ℕ
  resetTime : Time
  deriving DecidableEq

/-- `String(value || "na").slice(0, 64)`. -/
def identityPart (value : HeaderValue) : String :=
  let text := match value with
    | .absent => "na"
    | .one text => if text = "" then "na" else text
    | .many texts => ",".intercalate texts
  String.ofList (text.toList.take 64)

/-- The key by which a request is counted. -/
def rateLimitKey (req : RouteRequest) : String :=
  let forwarded := if req.trustProxy then req.header "x-forwarded-for" else .absent
  let forwardedIp := (getFirstHeaderValue forwarded).map fun value =>
    trim (String.ofList (value.toList.takeWhile (· ≠ ',')))
  let clientIp := [forwardedIp, req.ip, req.remoteAddress].find? fun ip => (ip.getD "") ≠ ""
  match clientIp with
  | some (some ip) => ip
  | _ => "unknown-client:" ++ "|".intercalate (["user-agent", "accept-language", "host"].map
      fun name => identityPart (req.header name))

/-- Whether a request is within the limit, and the windows after it. -/
def checkRateLimit (rateLimitMap : OrderedMap String RateLimitData) (now : Time) (key : String) :
    OrderedMap String RateLimitData × Bool :=
  match rateLimitMap.get? key with
  | none => (rateLimitMap.set key ⟨1, now + RATE_LIMIT_WINDOW⟩, true)
  | some clientData =>
    if clientData.resetTime ≤ now then
      (rateLimitMap.set key ⟨1, now + RATE_LIMIT_WINDOW⟩, true)
    else if RATE_LIMIT_MAX_REQUESTS ≤ clientData.count then (rateLimitMap, false)
    else (rateLimitMap.set key { clientData with count := clientData.count + 1 }, true)

/-- What happens to the table between a start and a stop of the plugin; `stopRateLimitCleanup`,
which every stop calls, empties it. -/
inductive RateLimitEvent where
  | request (now : Time) (req : RouteRequest)
  /-- the interval of `startRateLimitCleanup` -/
  | cleanup (now : Time)

namespace RateLimit

def now : RateLimitEvent → Time
  | .request now _ => now
  | .cleanup now => now

/-- The key of a request. -/
def key : RateLimitEvent → Option String
  | .request _ req => some (rateLimitKey req)
  | .cleanup _ => none

def step (m : OrderedMap String RateLimitData) : RateLimitEvent → OrderedMap String RateLimitData
  | .request now req => (checkRateLimit m now (rateLimitKey req)).1
  | .cleanup now => m.filter fun _ data => !decide (data.resetTime < now)

def allows (m : OrderedMap String RateLimitData) : RateLimitEvent → Bool
  | .request now req => (checkRateLimit m now (rateLimitKey req)).2
  | .cleanup _ => false

/-- The window of a key. -/
def window (m : OrderedMap String RateLimitData) (k : String) : Option Window :=
  (m.get? k).map fun data => ⟨data.count, data.resetTime⟩

section Window

variable {m : OrderedMap String RateLimitData} {t : Time} {k k' : String}

theorem checkRateLimit_served :
    (checkRateLimit m t k).2 = Window.allows RATE_LIMIT_MAX_REQUESTS (window m k) t ∧
      window (checkRateLimit m t k).1 k =
        Window.offer RATE_LIMIT_WINDOW RATE_LIMIT_MAX_REQUESTS (window m k) t := by
  rw [checkRateLimit, window, window]
  cases hk : m.get? k with
  | none => simp [Window.allows, Window.offer]
  | some data =>
    by_cases hreset : data.resetTime ≤ t
    · have hover : ¬ t < data.resetTime := not_lt.2 hreset
      simp [Window.allows, Window.offer, hreset, hover]
    · have hopen : t < data.resetTime := not_le.1 hreset
      by_cases hcount : RATE_LIMIT_MAX_REQUESTS ≤ data.count
      · simp [Window.allows, Window.offer, hreset, hopen, hcount, not_lt.2 hcount, hk]
      · simp [Window.allows, Window.offer, hreset, hopen, hcount, not_le.1 hcount]

theorem checkRateLimit_others (h : k' ≠ k) : window (checkRateLimit m t k).1 k' = window m k' := by
  rw [checkRateLimit, window, window]
  cases m.get? k with
  | none => rw [OrderedMap.get?_set_of_ne m h]
  | some data =>
    dsimp only
    split_ifs
    · rw [OrderedMap.get?_set_of_ne m h]
    · rfl
    · rw [OrderedMap.get?_set_of_ne m h]

end Window

/-- The rate limit as a table of windows. -/
def table : WindowTable (OrderedMap String RateLimitData) String RateLimitEvent RATE_LIMIT_WINDOW
    RATE_LIMIT_MAX_REQUESTS where
  step := step
  now := now
  key := key
  window := window
  allows := allows
  served m e k hkey := by
    cases e with
    | request t req =>
      obtain rfl := Option.some.inj hkey
      exact ⟨checkRateLimit_served.1, Or.inl checkRateLimit_served.2⟩
    | cleanup t => cases hkey
  others m e k hkey := by
    cases e with
    | request t req =>
      have hne : k ≠ rateLimitKey req := fun heq => hkey (heq ▸ rfl)
      exact Or.inl (checkRateLimit_others hne)
    | cleanup t =>
      rw [step, window, window, OrderedMap.get?_filter]
      cases hk : m.get? k with
      | none => exact Or.inl rfl
      | some data =>
        by_cases hover : data.resetTime < t
        · refine Or.inr ⟨fun x hx => ?_, fun x hx => ?_⟩
          · simp [not_le.2 hover] at hx
          · obtain rfl := Option.some.inj hx
            exact hover.le
        · exact Or.inl (by simp [not_lt.1 hover])

/-- **The rate limit.** From a start of the plugin to its stop, while the clock does not go back,
for every client:
- what is granted to it depends on its own requests alone, not on those of others, and not on what
  the cleanup forgets;
- in no interval of a minute are 240 of its requests granted;
- and a request is refused only when 120 of its requests have been granted in the minute before. -/
theorem requests_limited {es : List RateLimitEvent} (hclock : (es.map now).Pairwise (· ≤ ·))
    (client : String) :
    table.granted client OrderedMap.empty es =
        table.granted client OrderedMap.empty (es.filter fun e => key e = some client) ∧
      (∀ t, (table.granted client OrderedMap.empty es).countP
        (fun x => t ≤ x ∧ x < t + RATE_LIMIT_WINDOW) < 2 * RATE_LIMIT_MAX_REQUESTS) ∧
      ∀ before e after, es = before ++ e :: after → key e = some client →
        allows (run step OrderedMap.empty before) e = false →
        RATE_LIMIT_MAX_REQUESTS ≤ (table.granted client OrderedMap.empty before).countP
          (fun x => now e - RATE_LIMIT_WINDOW < x ∧ x ≤ now e) := by
  refine ⟨table.granted_filter rfl hclock, fun t => ?_, ?_⟩
  · have hnone : table.window OrderedMap.empty client = none := rfl
    exact lt_of_le_of_lt (WindowTable.countP_granted_le (by decide) hnone hclock t) (by decide)
  · rintro before e after rfl hkey hrefused
    refine table.limit_le_countP rfl ?_ hkey hrefused
    rw [List.append_cons, List.map_append] at hclock
    exact (List.pairwise_append.1 hclock).1

/-- Two clients, one of them behind a proxy, with a cleanup in between. -/
theorem requests_limited_twoClients :
    (table.granted "10.0.0.5" OrderedMap.empty [.request 0 { ip := some "10.0.0.5" },
      .request 5 { trustProxy := true, headers := [("x-forwarded-for", .one " 10.0.0.6, 10.0.0.1")] },
      .cleanup 70000, .request 70001 { ip := some "10.0.0.5" }]).countP
        (fun x => 20000 ≤ x ∧ x < 20000 + RATE_LIMIT_WINDOW) < 2 * RATE_LIMIT_MAX_REQUESTS :=
  (requests_limited (by decide) "10.0.0.5").2.1 20000

end RateLimit

/-! ## The management token -/

inductive ManagementAuthDecision where
  | allowed
  | denied
  deriving DecidableEq

inductive ManagementAuthReason where
  | openAccess
  | validToken
  | missingToken
  | invalidToken
  | tokenRequiredUnconfigured
  | configReadError
  deriving DecidableEq

/-- The decision that goes with a reason. -/
def ManagementAuthReason.decision : ManagementAuthReason → ManagementAuthDecision
  | .openAccess | .validToken => .allowed
  | _ => .denied

/-- The status and the text of a refusal. -/
def ManagementAuthReason.refusal : ManagementAuthReason → Option (ℕ × String)
  | .openAccess | .validToken => none
  | .missingToken | .invalidToken => some (401, "Unauthorized management API request")
  | .tokenRequiredUnconfigured => some (403, "Management API token required. " ++
      "Configure managementApiToken in plugin settings or set SIGNALK_EDGE_LINK_MANAGEMENT_TOKEN env var.")
  | .configReadError =>
    some (503, "Management API temporarily unavailable: unable to read configuration")

/-- What the check of a request finds in its surroundings. -/
structure AuthHost where
  /-- the options of the plugin while it runs -/
  currentOptions : Option JsValue
  /-- what the persisted options are each time they are read, `none` where that fails -/
  readPluginOptions : ℕ → Option JsValue
  tokenEnv : Option String
  requireTokenEnv : Option String

namespace AuthHost

variable (host : AuthHost)

/-- The options, and whether reading them has failed; `n` reads have been made before. -/
def resolveAuthOptions (n : ℕ) : JsValue × Bool :=
  match host.currentOptions with
  | some options => (options, false)
  | none =>
    match host.readPluginOptions n with
    | some opts =>
      let configuration := opts.get "configuration"
      (if configuration.isObjectType then configuration else .null, false)
    | none => (.null, true)

def getManagementToken (n : ℕ) : Option String :=
  let fromOptions := match (host.resolveAuthOptions n).1.get "managementApiToken" with
    | .str token => if trim token = "" then none else some (trim token)
    | _ => none
  fromOptions.or (host.tokenEnv.bind fun token => if trim token = "" then none else some (trim token))

def isTokenRequired (n : ℕ) : Bool :=
  if (host.resolveAuthOptions n).1.get "requireManagementApiToken" = .bool true then true
  else host.requireTokenEnv = some "true" || host.requireTokenEnv = some "1"

end AuthHost

/-- What ends a line for a regular expression. -/
def isLineTerminator (c : Char) : Bool := c = '\n' || c = '\r' || c = '\u2028' || c = '\u2029'

/-- The token of `Bearer <token>`; what is blank is no token. -/
def bearerToken (authorization : String) : Option String :=
  let rest := authorization.toList.drop 6
  let body := rest.dropWhile isTrimmed
  if (authorization.toList.take 6).map Char.toLower = "bearer".toList ∧ rest.length ≠ body.length ∧
      body.all (fun c => !isLineTerminator c) ∧ body ≠ [] then some (trim (String.ofList body))
  else none

/-- The tokens that a request carries. -/
def providedCandidates (req : RouteRequest) : List String :=
  let headerToken := (getFirstHeaderValue (req.header "x-edge-link-token")).or
    (getFirstHeaderValue (req.header "x-management-token"))
  let bearer := (getFirstHeaderValue (req.header "authorization")).bind bearerToken
  (headerToken.map trim).toList ++ bearer.toList

/-- The check of a request. Tokens are compared by their digests. -/
def authorizeManagement {β : Type*} [DecidableEq β] (digest : String → β) (host : AuthHost)
    (req : RouteRequest) : ManagementAuthReason :=
  if (host.resolveAuthOptions 0).2 then .configReadError
  else
    match host.getManagementToken 1 with
    | none => if host.isTokenRequired 2 then .tokenRequiredUnconfigured else .openAccess
    | some expectedToken =>
      let candidates := providedCandidates req
      if candidates.any fun token => digest expectedToken = digest token then .validToken
      else if candidates = [] then .missingToken
      else .invalidToken

def ALLOWED_MANAGEMENT_ACTIONS : List String :=
  ["paths.read", "config.read", "config.update", "plugin-schema.read", "config-file.read",
    "config-file.update", "connections.list", "connection-monitoring.read",
    "connection-bonding.read", "connection-config.read", "connection-config.update",
    "connection-bonding.failover", "congestion.read", "delta-timer.update", "bonding.read",
    "bonding.update", "bonding.failover", "metrics.read", "network-metrics.read",
    "prometheus.read", "sources.read", "monitoring.read", "monitoring.alerts.read",
    "monitoring.alerts.update", "capture.read", "capture.update", "capture.export",
    "monitoring.inspector.read", "monitoring.simulation.read", "status.read", "instances.list",
    "instances.show", "instances.create", "instances.update", "instances.delete"]

/-- The name under which an action is counted. -/
def normalizeManagementAuthAction (action : String) : String :=
  if ALLOWED_MANAGEMENT_ACTIONS.contains (trim action) then trim action else "unknown"

/-! ## The counters -/

/-- One more under a key. -/
def bump {κ : Type*} [DecidableEq κ] (m : OrderedMap κ ℕ) (k : κ) : OrderedMap κ ℕ :=
  m.set k ((m.get? k).getD 0 + 1)

structure ManagementAuthActionCounters where
  total : ℕ := 0
  allowed : ℕ := 0
  denied : ℕ := 0
  reasons : OrderedMap ManagementAuthReason ℕ := OrderedMap.empty
  byDecision : ManagementAuthDecision → OrderedMap ManagementAuthReason ℕ := fun _ => OrderedMap.empty

structure ManagementAuthTelemetry where
  total : ℕ := 0
  allowed : ℕ := 0
  denied : ℕ := 0
  byReason : OrderedMap ManagementAuthReason ℕ := OrderedMap.empty
  byAction : OrderedMap String ManagementAuthActionCounters := OrderedMap.empty

/-- Count a decision about an action. -/
def ManagementAuthActionCounters.count (c : ManagementAuthActionCounters)
    (reason : ManagementAuthReason) : ManagementAuthActionCounters where
  total := c.total + 1
  allowed := if reason.decision = .allowed then c.allowed + 1 else c.allowed
  denied := if reason.decision = .denied then c.denied + 1 else c.denied
  reasons := bump c.reasons reason
  byDecision := Function.update c.byDecision reason.decision (bump (c.byDecision reason.decision) reason)

/-- Count a decision. -/
def recordManagementAuthDecision (t : ManagementAuthTelemetry) (reason : ManagementAuthReason)
    (action : String) : ManagementAuthTelemetry :=
  let normalizedAction := normalizeManagementAuthAction action
  { total := t.total + 1
    allowed := if reason.decision = .allowed then t.allowed + 1 else t.allowed
    denied := if reason.decision = .denied then t.denied + 1 else t.denied
    byReason := bump t.byReason reason
    byAction := t.byAction.set normalizedAction
      (((t.byAction.get? normalizedAction).getD {}).count reason) }

/-! ## Routes -/

/-- What a request passes before its handler. -/
inductive Middleware where
  | rateLimit
  | auth (action : String)
  | requireJson
  | blockCrossSiteForm

inductive ApiReply where
  | refused (status : ℕ) (error : String)
  | handled
  deriving DecidableEq

/-- The media type of a `Content-Type`. -/
def mediaType (value : String) : String :=
  String.ofList ((trim (String.ofList (value.toList.takeWhile (· ≠ ';')))).toList.map Char.toLower)

def hasJsonContentType : HeaderValue → Bool
  | .absent => false
  | .one value => mediaType value = "application/json"
  | .many values => values.any fun value => mediaType value = "application/json"

def SIMPLE_FORM_CONTENT_TYPES : List String :=
  ["application/x-www-form-urlencoded", "multipart/form-data", "text/plain"]

/-- Why a request looks like the submission of a form of another site. -/
def crossSiteForm (req : RouteRequest) : Option (ℕ × String) :=
  let fetchSite := getFirstHeaderValue (req.header "sec-fetch-site")
  let contentType := getFirstHeaderValue (req.header "content-type")
  if (fetchSite.any fun site => site ≠ "same-origin" && site ≠ "same-site" && site ≠ "none") then
    some (403, "Cross-site requests are not allowed")
  else if (contentType.any fun value => SIMPLE_FORM_CONTENT_TYPES.contains (mediaType value)) then
    some (415, "Unsupported Content-Type for this endpoint")
  else none

structure ManagementApi where
  rateLimitMap : OrderedMap String RateLimitData := OrderedMap.empty
  telemetry : ManagementAuthTelemetry := {}

/-- A request to a route: the time, what surrounds it, and the middlewares of the route. -/
structure ApiRequest where
  now : Time
  host : AuthHost
  req : RouteRequest
  middlewares : List Middleware

namespace ManagementApi

variable {β : Type*} [DecidableEq β] (digest : String → β)

/-- One middleware: what it makes of the state, and the refusal if it refuses. -/
def middleware (api : ManagementApi) (r : ApiRequest) : Middleware →
    ManagementApi × Option (ℕ × String)
  | .rateLimit =>
    let (rateLimitMap, allowed) := checkRateLimit api.rateLimitMap r.now (rateLimitKey r.req)
    ({ api with rateLimitMap := rateLimitMap },
      if allowed then none else some (429, "Too many requests, please try again later"))
  | .auth action =>
    let reason := authorizeManagement digest r.host r.req
    ({ api with telemetry := recordManagementAuthDecision api.telemetry reason action },
      reason.refusal)
  | .requireJson =>
    (api, if hasJsonContentType (r.req.header "content-type") then none
      else some (415, "Content-Type must be application/json"))
  | .blockCrossSiteForm => (api, crossSiteForm r.req)

/-- The middlewares of a route, one after the other until one refuses. -/
def respond (api : ManagementApi) (r : ApiRequest) : List Middleware → ManagementApi × ApiReply
  | [] => (api, .handled)
  | m :: rest =>
    let next := api.middleware digest r m
    match next.2 with
    | none => next.1.respond r rest
    | some (status, error) => (next.1, .refused status error)

def step (api : ManagementApi) (r : ApiRequest) : ManagementApi :=
  (api.respond digest r r.middlewares).1

def reply (api : ManagementApi) (r : ApiRequest) : ApiReply :=
  (api.respond digest r r.middlewares).2

/-- The decision that a middleware makes, with the action that is counted. -/
def made (r : ApiRequest) : Middleware → List (ManagementAuthReason × String)
  | .auth action => [(authorizeManagement digest r.host r.req, normalizeManagementAuthAction action)]
  | _ => []

/-- The decisions that are made about a request. -/
def decided (api : ManagementApi) (r : ApiRequest) :
    List Middleware → List (ManagementAuthReason × String)
  | [] => []
  | m :: rest =>
    let next := api.middleware digest r m
    made digest r m ++ match next.2 with
      | none => next.1.decided r rest
      | some _ => []

/-- The decisions that are made in a step. -/
def decisions (api : ManagementApi) (r : ApiRequest) : List (ManagementAuthReason × String) :=
  api.decided digest r r.middlewares

end ManagementApi

/-! ## The tally -/

section Tally

variable {κ : Type*} [DecidableEq κ]

/-- A map of counters holds how often each key occurs, and no key that does not. -/
def Tallies (m : OrderedMap κ ℕ) (ks : List κ) : Prop :=
  ∀ k, m.get? k = if ks.count k = 0 then none else some (ks.count k)

theorem Tallies.empty : Tallies (OrderedMap.empty : OrderedMap κ ℕ) [] := fun _ => rfl

theorem Tallies.bump {m : OrderedMap κ ℕ} {ks : List κ} (h : Tallies m ks) (k : κ) :
    Tallies (EdgeLink.bump m k) (ks ++ [k]) := by
  intro k'
  rw [EdgeLink.bump, OrderedMap.get?_set, h k, h k', List.count_append]
  by_cases hk : k' = k
  · subst hk
    simp only [if_true, List.count_singleton_self, Nat.add_eq_zero_iff, one_ne_zero, and_false,
      if_false]
    split_ifs with h0
    · simp [h0]
    · simp
  · have hzero : List.count k' [k] = 0 := List.count_eq_zero.2 (by simp [hk])
    rw [if_neg hk, hzero, Nat.add_zero]

/-- Writing a counter changes a sum over the counters by the difference; what is not there counts
nothing. -/
theorem sum_values_set_getD {ν : Type*} {m : OrderedMap κ ν} {f : ν → ℕ} {d : ν} (hd : f d = 0) (k : κ)
    (w : ν) : ((m.set k w).values.map f).sum + f ((m.get? k).getD d) = (m.values.map f).sum + f w := by
  cases hk : m.get? k with
  | some v => exact OrderedMap.sum_values_set hk f w
  | none =>
    rw [OrderedMap.set, dif_pos hk]
    simp [OrderedMap.values, hd]

theorem sum_values_bump (m : OrderedMap κ ℕ) (k : κ) :
    (bump m k).values.sum = m.values.sum + 1 := by
  have h := sum_values_set_getD (f := id) (d := 0) (m := m) rfl k ((m.get? k).getD 0 + 1)
  simp only [List.map_id, id] at h
  rw [bump]
  omega

end Tally

/-- The counters of an action, after decisions with these reasons. -/
structure ActionTallied (c : ManagementAuthActionCounters) (log : List ManagementAuthReason) :
    Prop where
  total : c.total = log.length
  allowed : c.allowed = log.countP fun reason => reason.decision = .allowed
  denied : c.denied = log.countP fun reason => reason.decision = .denied
  reasons : Tallies c.reasons log
  byDecision : ∀ d, Tallies (c.byDecision d) (log.filter fun reason => reason.decision = d)

theorem ActionTallied.count {c : ManagementAuthActionCounters} {log : List ManagementAuthReason}
    (h : ActionTallied c log) (reason : ManagementAuthReason) :
    ActionTallied (c.count reason) (log ++ [reason]) where
  total := by simp [ManagementAuthActionCounters.count, h.total]
  allowed := by
    rw [List.countP_append, ← h.allowed, ManagementAuthActionCounters.count, List.countP_singleton]
    by_cases hd : reason.decision = .allowed <;> simp [hd]
  denied := by
    rw [List.countP_append, ← h.denied, ManagementAuthActionCounters.count, List.countP_singleton]
    by_cases hd : reason.decision = .denied <;> simp [hd]
  reasons := h.reasons.bump reason
  byDecision d := by
    show Tallies (Function.update c.byDecision reason.decision
      (bump (c.byDecision reason.decision) reason) d) _
    rw [List.filter_append, Function.update_apply]
    by_cases hd : d = reason.decision
    · subst hd
      simpa using (h.byDecision reason.decision).bump reason
    · simpa [hd, Ne.symm hd] using h.byDecision d

/-- The counters, after these decisions about these actions. -/
structure Tallied (t : ManagementAuthTelemetry) (log : List (ManagementAuthReason × String)) :
    Prop where
  total : t.total = log.length
  allowed : t.allowed = log.countP fun e => e.1.decision = .allowed
  denied : t.denied = log.countP fun e => e.1.decision = .denied
  byReason : Tallies t.byReason (log.map Prod.fst)
  byAction : ∀ action c, t.byAction.get? action = some c →
    ActionTallied c ((log.filter fun e => e.2 = action).map Prod.fst)
  actions : ∀ action, action ∈ t.byAction.keys ↔ action ∈ log.map Prod.snd
  sum_byReason : t.byReason.values.sum = t.total
  sum_byAction : (t.byAction.values.map ManagementAuthActionCounters.total).sum = t.total

theorem Tallied.empty : Tallied {} [] where
  total := rfl
  allowed := rfl
  denied := rfl
  byReason := Tallies.empty
  byAction action c hc := by cases hc
  actions action := by simp
  sum_byReason := rfl
  sum_byAction := rfl

/-- **Recording a decision** adds it to the tally. -/
theorem Tallied.record {t : ManagementAuthTelemetry} {log : List (ManagementAuthReason × String)}
    (h : Tallied t log) (reason : ManagementAuthReason) (action : String) :
    Tallied (recordManagementAuthDecision t reason action)
      (log ++ [(reason, normalizeManagementAuthAction action)]) where
  total := by simp [recordManagementAuthDecision, h.total]
  allowed := by
    rw [List.countP_append, ← h.allowed, recordManagementAuthDecision, List.countP_singleton]
    by_cases hd : reason.decision = .allowed <;> simp [hd]
  denied := by
    rw [List.countP_append, ← h.denied, recordManagementAuthDecision, List.countP_singleton]
    by_cases hd : reason.decision = .denied <;> simp [hd]
  byReason := by
    rw [List.map_append]
    exact h.byReason.bump reason
  byAction action' c hc := by
    rw [recordManagementAuthDecision, OrderedMap.get?_set] at hc
    rw [List.filter_append, List.map_append]
    split_ifs at hc with heq
    · obtain rfl := Option.some.inj hc
      subst heq
      have hold : ActionTallied ((t.byAction.get? (normalizeManagementAuthAction action)).getD {})
          ((log.filter fun e => e.2 = normalizeManagementAuthAction action).map Prod.fst) := by
        cases hget : t.byAction.get? (normalizeManagementAuthAction action) with
        | some c => exact h.byAction _ c hget
        | none =>
          -- the action has not been counted before
          have hnot : normalizeManagementAuthAction action ∉ log.map Prod.snd := by
            rw [← h.actions]
            exact OrderedMap.get?_eq_none.1 hget
          have hnil : log.filter (fun e => e.2 = normalizeManagementAuthAction action) = [] := by
            refine List.filter_eq_nil_iff.2 fun e he => ?_
            have hne : e.2 ≠ normalizeManagementAuthAction action := fun heq =>
              hnot (heq ▸ List.mem_map_of_mem he)
            simp [hne]
          rw [hnil]
          exact ⟨rfl, rfl, rfl, Tallies.empty, fun _ => Tallies.empty⟩
      simpa using hold.count reason
    · have hne : normalizeManagementAuthAction action ≠ action' := Ne.symm heq
      simpa [hne] using h.byAction action' c hc
  actions action' := by
    rw [recordManagementAuthDecision, OrderedMap.mem_keys_set, h.actions]
    simp [or_comm]
  sum_byReason := by
    rw [recordManagementAuthDecision, sum_values_bump, h.sum_byReason]
  sum_byAction := by
    have hsum := sum_values_set_getD (f := ManagementAuthActionCounters.total) (d := {})
      (m := t.byAction) rfl (normalizeManagementAuthAction action)
      (((t.byAction.get? (normalizeManagementAuthAction action)).getD {}).count reason)
    have hold := h.sum_byAction
    have htotal : (((t.byAction.get? (normalizeManagementAuthAction action)).getD {}).count
        reason).total =
        ((t.byAction.get? (normalizeManagementAuthAction action)).getD {}).total + 1 := rfl
    rw [recordManagementAuthDecision]
    dsimp only
    omega

theorem normalizeManagementAuthAction_mem (action : String) :
    normalizeManagementAuthAction action ∈ "unknown" :: ALLOWED_MANAGEMENT_ACTIONS := by
  rw [normalizeManagementAuthAction]
  split_ifs with h
  · exact List.mem_cons_of_mem _ (List.contains_iff_mem.1 h)
  · exact List.mem_cons_self

namespace ManagementApi

section Respond

variable {β : Type*} [DecidableEq β] {digest : String → β} {api : ManagementApi} {r : ApiRequest}
  {ms : List Middleware} {log : List (ManagementAuthReason × String)}

/-- One middleware adds its decision to the tally. -/
theorem middleware_tallied (h : Tallied api.telemetry log) (m : Middleware) :
    Tallied (api.middleware digest r m).1.telemetry (log ++ made digest r m) := by
  cases m with
  | auth action => exact h.record _ action
  | rateLimit => simpa [middleware, made] using h
  | requireJson => simpa [middleware, made] using h
  | blockCrossSiteForm => simpa [middleware, made] using h

/-- So do the middlewares of a route. -/
theorem respond_tallied (h : Tallied api.telemetry log) :
    Tallied (api.respond digest r ms).1.telemetry (log ++ api.decided digest r ms) := by
  induction ms generalizing api log with
  | nil => simpa [respond, decided] using h
  | cons m ms ih =>
    have hm : Tallied (api.middleware digest r m).1.telemetry (log ++ made digest r m) :=
      middleware_tallied h m
    simp only [respond, decided]
    cases (api.middleware digest r m).2 with
    | none =>
      rw [← List.append_assoc]
      exact ih hm
    | some refusal =>
      rw [List.append_nil]
      exact hm

theorem decided_normal {e : ManagementAuthReason × String} (he : e ∈ api.decided digest r ms) :
    e.2 ∈ "unknown" :: ALLOWED_MANAGEMENT_ACTIONS := by
  induction ms generalizing api with
  | nil => cases he
  | cons m ms ih =>
    simp only [decided] at he
    rcases List.mem_append.1 he with hmade | hrest
    · cases m with
      | auth action =>
        obtain rfl := List.mem_singleton.1 hmade
        exact normalizeManagementAuthAction_mem action
      | rateLimit => cases hmade
      | requireJson => cases hmade
      | blockCrossSiteForm => cases hmade
    · cases hrefusal : (api.middleware digest r m).2 with
      | none =>
        rw [hrefusal] at hrest
        exact ih hrest
      | some refusal =>
        rw [hrefusal] at hrest
        cases hrest

/-- What is handled has passed every middleware. -/
theorem allowed_of_handled (h : (api.respond digest r ms).2 = .handled) {action : String}
    (hauth : Middleware.auth action ∈ ms) :
    (authorizeManagement digest r.host r.req).decision = .allowed ∧
      (authorizeManagement digest r.host r.req, normalizeManagementAuthAction action) ∈
        api.decided digest r ms := by
  induction ms generalizing api with
  | nil => cases hauth
  | cons m ms ih =>
    simp only [respond, decided] at h ⊢
    cases hrefusal : (api.middleware digest r m).2 with
    | some refusal =>
      rw [hrefusal] at h
      cases h
    | none =>
      simp only [hrefusal] at h ⊢
      rcases List.mem_cons.1 hauth with rfl | hrest
      · refine ⟨?_, List.mem_append_left _ (List.mem_singleton_self _)⟩
        have hnone : (authorizeManagement digest r.host r.req).refusal = none := hrefusal
        cases hreason : authorizeManagement digest r.host r.req <;> rw [hreason] at hnone <;>
          first | rfl | cases hnone
      · obtain ⟨hdecision, hmem⟩ := ih h hrest
        exact ⟨hdecision, List.mem_append_right _ hmem⟩

end Respond

/-- **The counters of the management API** are the exact tally of the decisions, in every run: every
count, in total, by reason, by action and by action and reason, and their sums agree. Whatever
actions the routes name, no more than 36 are counted; and a handler behind a check runs only after a
decision that allows it, which has been counted. -/
theorem decisions_tallied {β : Type*} [DecidableEq β] (digest : String → β) (es : List ApiRequest) :
    let api := run (step digest) {} es
    Tallied api.telemetry (trace (step digest) (decisions digest) {} es) ∧
      api.telemetry.byAction.size ≤ 36 ∧
      ∀ before r after, es = before ++ r :: after →
        reply digest (run (step digest) {} before) r = .handled →
        ∀ action, Middleware.auth action ∈ r.middlewares →
          (authorizeManagement digest r.host r.req).decision = .allowed ∧
          (authorizeManagement digest r.host r.req, normalizeManagementAuthAction action) ∈
            decisions digest (run (step digest) {} before) r := by
  intro api
  have htallied : ∀ (es : List ApiRequest) (s : ManagementApi)
      (log : List (ManagementAuthReason × String)), Tallied s.telemetry log →
      Tallied (run (step digest) s es).telemetry
        (log ++ trace (step digest) (decisions digest) s es) := by
    intro es
    induction es with
    | nil =>
      intro s log h
      simpa [trace] using h
    | cons r es ih =>
      intro s log h
      rw [run_cons, trace_cons, ← List.append_assoc]
      exact ih _ _ (respond_tallied h)
  have h := htallied es {} [] Tallied.empty
  rw [List.nil_append] at h
  refine ⟨h, ?_, fun before r after _ hhandled action hauth => allowed_of_handled hhandled hauth⟩
  -- the actions that are counted have allowed names
  have hnormal : ∀ (es : List ApiRequest) (s : ManagementApi),
      ∀ e ∈ trace (step digest) (decisions digest) s es,
        e.2 ∈ "unknown" :: ALLOWED_MANAGEMENT_ACTIONS := by
    intro es
    induction es with
    | nil =>
      intro s e he
      cases he
    | cons r es ih =>
      intro s e he
      exact (List.mem_append.1 he).elim decided_normal (ih _ e)
  have hsubset : api.telemetry.byAction.keys ⊆ "unknown" :: ALLOWED_MANAGEMENT_ACTIONS := by
    intro action haction
    obtain ⟨e, he, rfl⟩ := List.mem_map.1 ((h.actions action).1 haction)
    exact hnormal es {} e he
  have hlength := api.telemetry.byAction.nodup_keys.length_le_of_subset hsubset
  rw [OrderedMap.length_keys] at hlength
  exact hlength

end ManagementApi

end EdgeLink
