import EdgeLink.App.InstanceIds
import EdgeLink.App.RedactedSecrets
import Mathlib.Data.List.InsertIdx

/-!
# Managing instances

The requests of `routes/connections.ts` that change which connections are configured: `POST`, `PUT`
and `DELETE /instances`. Each reads the current options of the plugin, makes the next list of
connections, and asks the server for a restart with it. The restart is awaited, and only then are
the next options the current ones (`restartWithConnections`); meanwhile the server stops and starts
the plugin (`index.ts`), and other requests are answered.

* `Startable`: a list of connections that the manager starts.
* `prepareConnectionList_startable`: it does, under whatever label it checks them.
* `Managed`: what holds of the options and of the restarts asked for, whatever the interleaving.
* `managed_run`: no request leads out of the configurations that can be started.
* `request_effect`: what one request makes of the list of connections.
-/

namespace EdgeLink

open ConnectionConfig

/-! ## The requests -/

/-- A registered instance, as the routes see it. -/
structure InstanceBundle where
  id : String
  name : String
  options : JsValue
  deriving DecidableEq

/-- What the routes read and write: the current options, whether the server has given a restart
handler, the registered instances, and the options of the restarts that have not completed. -/
structure PluginState where
  currentOptions : JsValue
  canRestart : Bool
  instances : List InstanceBundle
  restarts : List JsValue
  deriving DecidableEq

/-- A request that changes the configuration, past authorisation and the rate limit. -/
inductive InstanceRequest
  | create (body : JsValue)
  | update (id : String) (body : JsValue)
  | delete (id : String)

/-- The answer to a request: an error, or a restart that decides the answer. -/
inductive InstanceReply
  | error (status : ℕ) (message : String)
  | restart (nextOptions : JsValue) (successStatus : ℕ)
  deriving DecidableEq

/-- `{ ...base, ...patch }` -/
def assignFields (base patch : List (String × JsValue)) : List (String × JsValue) :=
  patch.foldl (fun fields e => setField fields e.1 e.2) base

/-- `v || {}` -/
def orEmpty (v : JsValue) : JsValue := if truthy v then v else .obj []

def withName (options name : JsValue) : JsValue := .obj (setField (entriesOf options) "name" name)

/-- What `PUT` does not change. -/
def immutableFields : List String := ["serverType", "udpPort", "secretKey"]

def mutableAllowed : List String :=
  ["name", "protocolVersion", "useMsgpack", "usePathDictionary", "enableNotifications",
    "udpAddress", "helloMessageSender", "reliability", "congestionControl", "bonding", "alertThresholds"]

/-- The error of the first property of a patch that is not one to change. -/
def patchError (keys : List String) : Option String :=
  keys.findSome? fun key =>
    if key ∈ immutableFields then
      some ("Field '" ++ key ++ "' is not updatable via /instances/:id")
    else if key ∉ mutableAllowed then
      some ("Field '" ++ key ++ "' is not supported for /instances/:id updates")
    else none

section Requests

variable (host : ConfigHost) (toLowerCase : String → String)

def getCurrentConnectionsConfig (s : PluginState) : List JsValue :=
  match s.currentOptions.get "connections" with
  | .arr items => items.map spreadConnection
  | _ =>
    if truthy (s.currentOptions.get "serverType") then
      [withName s.currentOptions (.str (host.textOr (s.currentOptions.get "name") "default"))]
    else s.instances.map fun b => withName (orEmpty b.options) (.str b.name)

def getBundleById (s : PluginState) (id : String) : Option InstanceBundle :=
  s.instances.find? (·.id = id)

def restartWithConnections (s : PluginState) (connections : List JsValue) (successStatus : ℕ) :
    InstanceReply :=
  if s.canRestart = false then .error 503 "Runtime restart handler unavailable"
  else if connections = [] then .error 400 "At least one instance must remain configured"
  else
    .restart (.obj (setField (entriesOf s.currentOptions) "connections"
      (.arr (connections.map sanitizeConnectionConfig)))) successStatus

/-- `POST /instances` -/
def createInstance (s : PluginState) (body : JsValue) : InstanceReply :=
  let body := orEmpty body
  if isObject body = false then .error 400 "Request body must be a JSON object"
  else if truthy (body.get "name") = false then .error 400 "Missing required field 'name'"
  else
    let sanitized := sanitizeConnectionConfig body
    match validateConnectionConfig host.toConfigPlatform sanitized "" with
    | some validationError => .error 400 validationError
    | none =>
      let connections := getCurrentConnectionsConfig host s ++ [sanitized]
      match validateUniqueServerPorts host connections with
      | some portError => .error 400 portError
      | none => restartWithConnections s connections 201

/-- `PUT /instances/:id` -/
def updateInstance (s : PluginState) (id : String) (body : JsValue) : InstanceReply :=
  if (getBundleById s id).isNone then .error 404 ("Instance '" ++ id ++ "' not found")
  else
    let patch := orEmpty body
    if isObject patch = false then .error 400 "Request body must be a JSON object"
    else if entriesOf patch = [] then
      .error 400 "Request body must include at least one field to update"
    else
      let connections := getCurrentConnectionsConfig host s
      let idx := findConnectionIndexByInstanceId toLowerCase connections id
      if idx = -1 then .error 404 ("Configuration for instance '" ++ id ++ "' not found")
      else
        match patchError ((entriesOf patch).map Prod.fst) with
        | some fieldError => .error 400 fieldError
        | none =>
          let connection := connections.getD idx.toNat (.obj [])
          let sanitizedConnection :=
            sanitizeConnectionConfig (.obj (assignFields (entriesOf connection) (entriesOf patch)))
          match validateConnectionConfig host.toConfigPlatform sanitizedConnection "" with
          | some validationError => .error 400 validationError
          | none =>
            let connections := connections.set idx.toNat sanitizedConnection
            match validateUniqueServerPorts host connections with
            | some portError => .error 400 portError
            | none => restartWithConnections s connections 200

/-- `DELETE /instances/:id` -/
def deleteInstance (s : PluginState) (id : String) : InstanceReply :=
  if (getBundleById s id).isNone then .error 404 ("Instance '" ++ id ++ "' not found")
  else
    let connections := getCurrentConnectionsConfig host s
    let idx := findConnectionIndexByInstanceId toLowerCase connections id
    if idx = -1 then .error 404 ("Configuration for instance '" ++ id ++ "' not found")
    else
      restartWithConnections s (connections.take idx.toNat ++ connections.drop (idx.toNat + 1)) 200

def reply (s : PluginState) : InstanceRequest → InstanceReply
  | .create body => createInstance host s body
  | .update id body => updateInstance host toLowerCase s id body
  | .delete id => deleteInstance host toLowerCase s id

/-! ## The plugin -/

/-- The current options after `plugin.start(options)`. -/
def startedOptions (options : JsValue) : JsValue :=
  match options.get "connections" with
  | .arr (c :: connections) =>
    .obj (setField (entriesOf options) "connections"
      (.arr ((c :: connections).map sanitizeConnectionConfig)))
  | _ =>
    if truthy (options.get "serverType") then
      let rest := (entriesOf options).filter (·.1 ≠ "connections")
      .obj (assignFields rest (entriesOf (sanitizeConnectionConfig (.obj rest))))
    else options

/-- What the manager takes from the configuration. -/
def hostDeps : ManagerDeps :=
  managerDeps toLowerCase host.numberToString sanitizeConnectionConfig fun connection =>
    (validateConnectionConfig host.toConfigPlatform connection "").isNone

/-- The instances that the manager registers when it is started with `options`. -/
def registeredInstances (options : JsValue) : List InstanceBundle :=
  match (parseConnectionList (hostDeps host toLowerCase) options).bind
      (prepareConnectionList (hostDeps host toLowerCase)) with
  | none => []
  | some connections =>
    ((deriveConnectionIds toLowerCase connections).zip connections).map fun e =>
      ⟨e.1, nameOr (hostDeps host toLowerCase) e.2 e.1, e.2⟩

/-- What happens to the plugin: a request is answered, a restart completes or fails, the server
starts or stops the plugin, and the manager rolls back a start that has failed. -/
inductive PluginEvent
  | request (r : InstanceRequest)
  | restarted (i : ℕ) (ok : Bool)
  | start (options : JsValue) (canRestart : Bool)
  | stop
  | startFailed

def PluginState.new : PluginState := ⟨.undefined, false, [], []⟩

def pluginStep (s : PluginState) : PluginEvent → PluginState
  | .request r =>
    match reply host toLowerCase s r with
    | .error _ _ => s
    | .restart nextOptions _ => { s with restarts := s.restarts ++ [nextOptions] }
  | .restarted i ok =>
    match s.restarts[i]? with
    | none => s
    | some nextOptions =>
      { s with
        currentOptions := if ok then nextOptions else s.currentOptions
        restarts := s.restarts.eraseIdx i }
  | .start options canRestart =>
    { s with
      currentOptions := startedOptions options
      canRestart := canRestart
      instances := registeredInstances host toLowerCase options }
  | .stop => { s with currentOptions := .null, canRestart := false, instances := [] }
  | .startFailed => { s with instances := [] }

end Requests

/-! ## Labels -/

namespace ConnectionConfig

section Labels

variable {platform : ConfigPlatform} {conn v : JsValue} (p p' : String)

theorem optional_eq_none {error : JsValue → Option String} :
    optional v error = none ↔ v = .undefined ∨ error v = none := by
  rw [optional]
  split_ifs with h <;> simp [h]

theorem numberRangeError_label {object : JsValue} {key : String} {min max : ℕ}
    (label label' : String) : numberRangeError object key min max label = none ↔
      numberRangeError object key min max label' = none := by
  rw [numberRangeError_eq_none, numberRangeError_eq_none]

theorem booleanError_label {object : JsValue} {key : String} (label label' : String) :
    booleanError object key label = none ↔ booleanError object key label' = none := by
  rw [booleanError, booleanError]
  cases object.get key <;> simp

theorem pathListError_label (pathFilter : JsValue) (key : String) :
    pathListError p pathFilter key = none ↔ pathListError p' pathFilter key = none := by
  rw [pathListError, pathListError, optional_eq_none, optional_eq_none]
  cases pathFilter.get key with
  | arr items =>
    simp only [firstError_eq_none, List.mem_mapIdx, forall_exists_index]
    refine or_congr Iff.rfl ⟨fun h error i hi heq => ?_, fun h error i hi heq => ?_⟩ <;>
      exact heq ▸ errorIf_eq_none.2 (errorIf_eq_none.1 (h _ i hi rfl))
  | _ => simp

theorem pathFilterError_label : pathFilterError p v = none ↔ pathFilterError p' v = none := by
  rw [pathFilterError, pathFilterError]
  split_ifs
  · simp only [firstError_eq_none, List.forall_mem_append, List.forall_mem_map, errorIf_eq_none,
      pathListError_label p p']
  · simp

theorem pathPrecisionError_label :
    pathPrecisionError p v = none ↔ pathPrecisionError p' v = none := by
  rw [pathPrecisionError, pathPrecisionError]
  split_ifs
  · simp only [firstError_eq_none, List.forall_mem_map, errorIf_eq_none]
  · simp

theorem throttleRuleError_label (path : String) (rule : JsValue) :
    throttleRuleError p path rule = none ↔ throttleRuleError p' path rule = none := by
  rw [throttleRuleError, throttleRuleError]
  split_ifs
  · simp only [firstError_eq_none, List.forall_mem_append, List.forall_mem_map, errorIf_eq_none,
      List.forall_mem_cons, optional_eq_none]
  · simp

theorem pathThrottleError_label : pathThrottleError p v = none ↔ pathThrottleError p' v = none := by
  rw [pathThrottleError, pathThrottleError]
  split_ifs
  · simp only [firstError_eq_none, List.forall_mem_map, throttleRuleError_label p p']
  · simp

theorem nameError_label : nameError p v = none ↔ nameError p' v = none := by
  cases v <;> simp [nameError, errorIf_eq_none]

theorem connectionIdError_label : connectionIdError p v = none ↔ connectionIdError p' v = none := by
  cases v <;> simp [connectionIdError, errorIf_eq_none]

theorem epochBoundAuthError_label :
    epochBoundAuthError p conn = none ↔ epochBoundAuthError p' conn = none := by
  rw [epochBoundAuthError, epochBoundAuthError]
  split_ifs
  · simp only [firstError_eq_none, List.forall_mem_cons, errorIf_eq_none]
  · rfl

theorem useCompactDeltasError_label :
    useCompactDeltasError p conn = none ↔ useCompactDeltasError p' conn = none := by
  rw [useCompactDeltasError, useCompactDeltasError]
  split_ifs
  · simp only [firstError_eq_none, List.forall_mem_cons, errorIf_eq_none]
  · rfl

theorem clientErrors_label : (∀ error ∈ clientErrors p conn, error = none) ↔
    ∀ error ∈ clientErrors p' conn, error = none := by
  rw [clientErrors, clientErrors]
  split_ifs
  · simp only [List.forall_mem_cons, errorIf_eq_none, optional_eq_none, pingIntervalTimeError]
  · simp only [List.forall_mem_cons, List.forall_mem_map, errorIf_eq_none]

theorem thresholdError_label (metric : String) (threshold : JsValue) :
    thresholdError p metric threshold = none ↔ thresholdError p' metric threshold = none := by
  rw [thresholdError, thresholdError]
  split_ifs <;>
    simp only [firstError_eq_none, List.forall_mem_append, List.forall_mem_cons, errorIf_eq_none,
      optional_eq_none]

theorem alertThresholdsError_label :
    alertThresholdsError p v = none ↔ alertThresholdsError p' v = none := by
  rw [alertThresholdsError, alertThresholdsError]
  split_ifs
  · simp only [firstError_eq_none, List.forall_mem_map, thresholdError_label p p']
  · simp

theorem reliabilityError_label (isServer : Bool) :
    reliabilityError platform p isServer v = none ↔
      reliabilityError platform p' isServer v = none := by
  rw [reliabilityError, reliabilityError]
  split_ifs
  all_goals
    simp only [firstError_eq_none, List.forall_mem_append, List.forall_mem_map,
      List.forall_mem_cons, errorIf_eq_none, optional_eq_none, numberRangeError_label _ "",
      booleanError_label _ ""]

theorem bondingLinkError_label (linkKey : String) :
    bondingLinkError p linkKey v = none ↔ bondingLinkError p' linkKey v = none := by
  rw [bondingLinkError, bondingLinkError]
  split_ifs
  · simp only [firstError_eq_none, List.forall_mem_cons, errorIf_eq_none, optional_eq_none]
  · simp

theorem failoverError_label : failoverError p v = none ↔ failoverError p' v = none := by
  rw [failoverError, failoverError]
  split_ifs
  · simp only [firstError_eq_none, List.forall_mem_cons, errorIf_eq_none, optional_eq_none,
      numberRangeError_label _ "", lossThresholdError]
  · simp

theorem bondingError_label : bondingError p v = none ↔ bondingError p' v = none := by
  rw [bondingError, bondingError]
  split_ifs
  · simp only [firstError_eq_none, List.forall_mem_append, List.forall_mem_map,
      List.forall_mem_cons, errorIf_eq_none, optional_eq_none, booleanError_label _ "",
      bondingLinkError_label p p', failoverError_label p p']
  · simp

theorem validateCongestionControl_label :
    validateCongestionControl p v = none ↔ validateCongestionControl p' v = none := by
  cases v with
  | obj fields =>
    simp only [validateCongestionControl, Option.orElse_eq_none, List.findSome?_eq_none_iff,
      numberRangeError_label _ "", booleanError_label _ ""]
    simp
  | _ => simp [validateCongestionControl]

theorem forall_mem_ite_nil {α : Type*} {c : Prop} [Decidable c] {l : List α} {q : α → Prop} :
    (∀ a ∈ if c then l else [], q a) ↔ (c → ∀ a ∈ l, q a) := by
  split_ifs with h <;> simp [h]

/-- **The label of a connection only shows in the messages**: a connection is valid under every
label or under none. -/
theorem validate_label :
    validateConnectionConfig platform conn p = none ↔
      validateConnectionConfig platform conn p' = none := by
  rw [validateConnectionConfig, validateConnectionConfig]
  split_ifs
  · simp only [firstError_eq_none, connectionErrors, List.forall_mem_append, List.forall_mem_cons,
      List.forall_mem_map, forall_mem_ite_nil, errorIf_eq_none, optional_eq_none,
      Option.map_eq_none_iff, booleanError_label _ "", numberRangeError_label _ "",
      protocolVersionError, brotliQualityError, helloMessageSenderError,
      epochBoundAuthError_label p p', useCompactDeltasError_label p p', pathFilterError_label p p',
      pathPrecisionError_label p p', pathThrottleError_label p p', nameError_label p p',
      connectionIdError_label p p', clientErrors_label p p', alertThresholdsError_label p p',
      reliabilityError_label p p', bondingError_label p p', validateCongestionControl_label p p']
  all_goals simp

end Labels

end ConnectionConfig

/-! ## What the manager starts -/

section Startable

variable (host : ConfigHost)

/-- The port of a server, as the check of the ports reads it. -/
def serverPort (connection : JsValue) : Option ℚ :=
  if normalizeServerType (connection.get "serverType") = .str "server" then
    host.integer? (connection.get "udpPort")
  else none

/-- **A list of connections that can be started**: there is one, each is valid once it is sanitised,
and no two servers have the same port. -/
structure Startable (connections : List JsValue) : Prop where
  nonempty : connections ≠ []
  valid : ∀ c ∈ connections,
    validateConnectionConfig host.toConfigPlatform (sanitizeConnectionConfig c) "" = none
  ports : validateUniqueServerPorts host connections = none

variable {host} {connections : List JsValue}

theorem filter_idxOf_eq_nil {α : Type*} [DecidableEq α] {l : List α} :
    (l.zipIdx.filter fun e => l.idxOf e.1 ≠ e.2) = [] ↔ l.Nodup := by
  rw [List.filter_eq_nil_iff]
  constructor
  · intro h
    rw [List.nodup_iff_injective_get]
    intro i j hij
    have hplace : ∀ k : Fin l.length, l.idxOf (l.get k) = k := by
      intro k
      have hmem : (l.get k, k.val) ∈ l.zipIdx :=
        List.mem_zipIdx_iff_getElem?.2 (List.getElem?_eq_getElem k.isLt)
      simpa using h _ hmem
    exact Fin.ext ((hplace i).symm.trans ((congrArg l.idxOf hij).trans (hplace j)))
  · rintro hnodup ⟨a, i⟩ hmem
    obtain ⟨hi, hget⟩ := List.getElem?_eq_some_iff.1 (List.mem_zipIdx_iff_getElem?.1 hmem)
    dsimp only at hi hget ⊢
    rw [← hget, hnodup.idxOf_getElem i hi]
    simp

/-- The ports pass the check when no two servers have the same. -/
theorem validateUniqueServerPorts_eq_none :
    validateUniqueServerPorts host connections = none ↔
      (connections.filterMap (serverPort host)).Nodup := by
  have hports : ((connections.filter fun connection =>
      normalizeServerType (connection.get "serverType") = .str "server").filterMap
        fun connection => host.integer? (connection.get "udpPort")) =
      connections.filterMap (serverPort host) := by
    induction connections with
    | nil => rfl
    | cons c connections ih =>
      by_cases hserver : normalizeServerType (c.get "serverType") = .str "server"
      · have hport : serverPort host c = host.integer? (c.get "udpPort") := if_pos hserver
        rw [List.filter_cons_of_pos (by simpa using hserver), List.filterMap_cons,
          List.filterMap_cons, ih, hport]
      · have hport : serverPort host c = none := if_neg hserver
        rw [List.filter_cons_of_neg (by simpa using hserver), List.filterMap_cons, ih, hport]
  rw [validateUniqueServerPorts, hports, ← filter_idxOf_eq_nil,
    ← List.map_eq_nil_iff (f := Prod.fst)]
  split_ifs with h
  · exact iff_of_true rfl h
  · exact iff_of_false nofun h

/-- Sanitising a connection leaves its port alone. -/
@[simp] theorem serverPort_sanitize (c : JsValue) :
    serverPort host (sanitizeConnectionConfig c) = serverPort host c := by
  rw [serverPort, serverPort, get_sanitize_serverType, normalizeServerType_normalizeServerType,
    get_sanitize_kept c (by decide) (by decide) (by decide)]

theorem startable_map_sanitize :
    Startable host (connections.map sanitizeConnectionConfig) ↔ Startable host connections := by
  have hports : (connections.map sanitizeConnectionConfig).filterMap (serverPort host) =
      connections.filterMap (serverPort host) := by
    rw [List.filterMap_map]
    exact List.filterMap_congr fun c _ => serverPort_sanitize c
  constructor
  · rintro ⟨hnonempty, hvalid, hunique⟩
    refine ⟨by simpa using hnonempty, fun c hc => ?_, ?_⟩
    · rw [← sanitize_sanitize]
      exact hvalid _ (List.mem_map_of_mem hc)
    · rwa [validateUniqueServerPorts_eq_none, hports,
        ← validateUniqueServerPorts_eq_none] at hunique
  · rintro ⟨hnonempty, hvalid, hunique⟩
    refine ⟨by simpa using hnonempty, List.forall_mem_map.2 fun c hc => ?_, ?_⟩
    · rw [sanitize_sanitize]
      exact hvalid c hc
    · rwa [validateUniqueServerPorts_eq_none, hports, ← validateUniqueServerPorts_eq_none]

/-- The port of a valid connection is an integer. -/
theorem integer_of_valid {c : JsValue} {p : String}
    (h : validateConnectionConfig host.toConfigPlatform c p = none) :
    ∃ q : ℚ, c.get "udpPort" = .num (.finite q) ∧ host.integer? (c.get "udpPort") = some q := by
  have herror : errorIf (isValidPort (c.get "udpPort") 1024 = false)
      (p ++ "udpPort must be an integer between 1024 and 65535") = none :=
    error_eq_none_of_valid h (by simp [connectionErrors])
  rw [errorIf_eq_none, Bool.not_eq_false] at herror
  obtain ⟨q, hq⟩ := udpPort_of_valid h
  rw [hq, isValidPort, integerIn, decide_eq_true_eq] at herror
  refine ⟨q, hq, ?_⟩
  rw [hq, ConfigHost.integer?]
  exact if_pos herror.1

/-- The manager and the routes take the same connections for servers. -/
theorem isServer_iff (c : JsValue) :
    isServer c = true ↔ normalizeServerType (c.get "serverType") = .str "server" := by
  rw [isServer, decide_eq_true_eq]
  cases c.get "serverType" with
  | bool b => cases b <;> simp [normalizeServerType]
  | _ => simp [normalizeServerType]

/-- The ports that the manager compares are those that the routes compare. -/
theorem map_udpPort_eq (hvalid : ∀ c ∈ connections,
    validateConnectionConfig host.toConfigPlatform (sanitizeConnectionConfig c) "" = none) :
    (connections.filter (isServer ·)).map (·.get "udpPort") =
      (connections.filterMap (serverPort host)).map fun q => .num (.finite q) := by
  induction connections with
  | nil => rfl
  | cons c connections ih =>
    have hrest := ih fun c hc => hvalid c (List.mem_cons_of_mem _ hc)
    obtain ⟨q, hq, hport⟩ := integer_of_valid (hvalid c List.mem_cons_self)
    rw [get_sanitize_kept c (by decide) (by decide) (by decide)] at hq hport
    by_cases hserver : isServer c = true
    · have hsome : serverPort host c = some q := by
        rw [serverPort, if_pos ((isServer_iff c).1 hserver), hport]
      rw [List.filter_cons_of_pos hserver, List.map_cons, List.filterMap_cons, hsome, hrest, hq]
      rfl
    · have hnone : serverPort host c = none := if_neg (mt (isServer_iff c).2 hserver)
      rw [List.filter_cons_of_neg hserver, List.filterMap_cons, hnone, hrest]

/-- **What can be started is started**: the manager takes the list, sanitised. -/
theorem prepareConnectionList_startable (toLowerCase : String → String)
    (h : Startable host connections) :
    prepareConnectionList (hostDeps host toLowerCase) connections =
      some (connections.map sanitizeConnectionConfig) := by
  have hports : ((connections.filter (isServer ·)).map (·.get "udpPort")).Nodup := by
    rw [map_udpPort_eq h.valid]
    refine (validateUniqueServerPorts_eq_none.1 h.ports).map fun a b hab => ?_
    simpa using hab
  have hall : (connections.map sanitizeConnectionConfig).all
      (hostDeps host toLowerCase).isValidConnectionConfig = true := by
    rw [List.all_map, List.all_eq_true]
    intro c hc
    simpa [hostDeps, managerDeps] using h.valid c hc
  rw [prepareConnectionList, if_neg (not_not.2 hports)]
  exact if_pos hall

end Startable

/-! ## The configured connections -/

section Configured

variable (host : ConfigHost)

/-- The connections that some options configure: a list, or the options themselves. -/
def configuredList (options : JsValue) : Option (List JsValue) :=
  match options.get "connections" with
  | .arr items => some (items.map spreadConnection)
  | _ =>
    if truthy (options.get "serverType") then
      some [withName options (.str (host.textOr (options.get "name") "default"))]
    else none

theorem getCurrentConnectionsConfig_eq (s : PluginState) :
    getCurrentConnectionsConfig host s = (configuredList host s.currentOptions).getD
      (s.instances.map fun b => withName (orEmpty b.options) (.str b.name)) := by
  rw [getCurrentConnectionsConfig, configuredList]
  split
  · rfl
  · split_ifs <;> rfl

/-- The options with which a restart is asked for. -/
def withConnections (options : JsValue) (connections : List JsValue) : JsValue :=
  .obj (setField (entriesOf options) "connections" (.arr (connections.map sanitizeConnectionConfig)))

theorem get_withConnections (options : JsValue) (connections : List JsValue) (key : String) :
    (withConnections options connections).get key =
      if key = "connections" then .arr (connections.map sanitizeConnectionConfig)
      else options.get key := by
  show ((setField _ _ _).lookup key).getD JsValue.undefined = _
  rw [lookup_setField]
  split_ifs
  · rfl
  · cases options <;> rfl

variable {host}

theorem spreadConnection_sanitize (c : JsValue) :
    spreadConnection (sanitizeConnectionConfig c) = sanitizeConnectionConfig c := by
  rw [sanitize_eq]
  rfl

theorem configuredList_withConnections (options : JsValue) (connections : List JsValue) :
    configuredList host (withConnections options connections) =
      some (connections.map sanitizeConnectionConfig) := by
  rw [configuredList, get_withConnections, if_pos rfl]
  simp [Function.comp_def, spreadConnection_sanitize]

/-! ### A flat configuration -/

theorem lookup_assignFields (base patch : List (String × JsValue)) (key : String) :
    (assignFields base patch).lookup key = (patch.reverse.lookup key <|> base.lookup key) := by
  induction patch generalizing base with
  | nil => rfl
  | cons e patch ih =>
    rw [assignFields, List.foldl_cons, ← assignFields, ih, lookup_setField, List.reverse_cons,
      List.lookup_append, List.lookup_cons]
    cases hpatch : patch.reverse.lookup key with
    | some v => rfl
    | none =>
      by_cases hkey : key = e.1
      · simp [hkey]
      · simp [hkey, beq_false_of_ne hkey]

theorem lookup_reverse {l : List (String × JsValue)} (hkeys : (l.map Prod.fst).Nodup)
    (key : String) : l.reverse.lookup key = l.lookup key := by
  have hreverse : (l.reverse.map Prod.fst).Nodup := by
    rw [List.map_reverse]
    exact List.nodup_reverse.2 hkeys
  refine Option.ext fun v => ?_
  rw [lookup_eq_some_iff hreverse, lookup_eq_some_iff hkeys, List.mem_reverse]

theorem get_assignFields {base patch : List (String × JsValue)} (hkeys : (patch.map Prod.fst).Nodup)
    (key : String) : JsValue.get (.obj (assignFields base patch)) key =
      ((patch.lookup key <|> base.lookup key).getD .undefined) := by
  show ((assignFields base patch).lookup key).getD JsValue.undefined = _
  rw [lookup_assignFields, lookup_reverse hkeys]

theorem nodup_keys_tabulate {keys : List String} (hkeys : keys.Nodup) (g : String → JsValue) :
    ((tabulate keys g).map Prod.fst).Nodup := by
  refine List.Nodup.sublist ?_ hkeys
  induction keys with
  | nil => exact List.Sublist.refl _
  | cons key keys ih =>
    have hrest := ih (List.nodup_cons.1 hkeys).2
    rw [tabulate_cons]
    split_ifs
    · exact hrest.cons key
    · exact hrest.cons_cons key

/-- Writing what sanitising makes of a connection over it gives, property by property, the one or
the other. -/
theorem get_assign_sanitize (fields : List (String × JsValue)) (key : String) :
    JsValue.get (.obj (assignFields fields (entriesOf (sanitizeConnectionConfig (.obj fields))))) key =
        JsValue.get (.obj fields) key ∨
      JsValue.get (.obj (assignFields fields (entriesOf (sanitizeConnectionConfig (.obj fields))))) key =
        (sanitizeConnectionConfig (.obj fields)).get key := by
  rw [sanitize_eq, entriesOf, get_assignFields (nodup_keys_tabulate nodup_VALID_CONNECTION_KEYS _)]
  cases h : (tabulate VALID_CONNECTION_KEYS (sanitizedProperty (.obj fields))).lookup key with
  | none => exact Or.inl rfl
  | some v =>
    refine Or.inr ?_
    rw [JsValue.get, h]
    rfl

/-- **Sanitising takes up where it left off**: a connection of which each property is that of
another one, or what sanitising makes of it, is sanitised to the same. -/
theorem sanitize_congr {a b : JsValue} (h : ∀ key ∈ VALID_CONNECTION_KEYS,
    a.get key = b.get key ∨ a.get key = (sanitizeConnectionConfig b).get key) :
    sanitizeConnectionConfig a = sanitizeConnectionConfig b := by
  have htype : normalizeServerType (a.get "serverType") =
      normalizeServerType (b.get "serverType") := by
    rcases h "serverType" (by decide) with heq | heq
    · rw [heq]
    · rw [heq, get_sanitize_serverType, normalizeServerType_normalizeServerType]
  have hversion : coercedVersion (a.get "protocolVersion") =
      coercedVersion (b.get "protocolVersion") := by
    rcases h "protocolVersion" (by decide) with heq | heq
    · rw [heq]
    · rw [heq, get_sanitize_protocolVersion, coercedVersion_coercedVersion]
  have hid : trimmedText (a.get "connectionId") = trimmedText (b.get "connectionId") := by
    rcases h "connectionId" (by decide) with heq | heq
    · rw [heq]
    · rw [heq, get_sanitize_connectionId, trimmedText_trimmedText]
  rw [sanitize_eq a, sanitize_eq b]
  refine congrArg _ (tabulate_congr fun key hkey => ?_)
  rw [sanitizedProperty, sanitizedProperty, htype, hversion, hid]
  split_ifs with hstripped hserver hversionKey hidKey
  · rfl
  · rfl
  · rfl
  · rfl
  · rcases h key hkey with heq | heq
    · exact heq
    · rw [heq, get_sanitize b hkey, sanitizedProperty]
      simp [hstripped, hserver, hversionKey, hidKey]

theorem get_withName (options name : JsValue) (key : String) :
    (withName options name).get key = if key = "name" then name else options.get key := by
  show ((setField _ _ _).lookup key).getD JsValue.undefined = _
  rw [lookup_setField]
  split_ifs
  · rfl
  · cases options <;> rfl

/-- The name of a connection plays no part in how its other properties are sanitised. -/
theorem get_sanitize_withName (options name : JsValue) {key : String}
    (hkey : key ∈ VALID_CONNECTION_KEYS) (hname : key ≠ "name") :
    (sanitizeConnectionConfig (withName options name)).get key =
      (sanitizeConnectionConfig options).get key := by
  rw [get_sanitize _ hkey, get_sanitize _ hkey]
  simp only [sanitizedProperty, get_withName, if_neg hname, show "serverType" ≠ "name" by decide,
    show "protocolVersion" ≠ "name" by decide, show "connectionId" ≠ "name" by decide, if_false]

theorem lookup_filter_of_keep (keep : String → Bool) {key : String} (hkey : keep key = true)
    (l : List (String × JsValue)) : (l.filter fun e => keep e.1).lookup key = l.lookup key := by
  induction l with
  | nil => rfl
  | cons e l ih =>
    rw [List.filter_cons]
    split_ifs with he
    · rw [List.lookup_cons, List.lookup_cons, ih]
    · have hne : key ≠ e.1 := fun heq => he (heq ▸ hkey)
      rw [ih, List.lookup_cons, beq_false_of_ne hne]

/-- The options as a connection, for the manager and for the routes. -/
theorem sanitize_asConnection (toLowerCase : String → String) (options : JsValue) :
    sanitizeConnectionConfig (asConnection (hostDeps host toLowerCase) options) =
      sanitizeConnectionConfig
        (withName options (.str (host.textOr (options.get "name") "default"))) := by
  have hname : nameOr (hostDeps host toLowerCase) options "default" =
      host.textOr (options.get "name") "default" := rfl
  refine sanitize_congr fun key _ => Or.inl ?_
  rw [get_withName, asConnection.eq_def, hname]
  generalize JsValue.str (host.textOr (options.get "name") "default") = name
  cases options with
  | obj fields =>
    dsimp only
    rw [JsValue.get, List.lookup_append]
    by_cases heq : key = "name"
    · subst heq
      have hnone : (fields.filter fun e => e.1 ≠ "name").lookup "name" = none := by
        rw [← Option.not_isSome_iff_eq_none, lookup_isSome_iff]
        simp
      rw [hnone]
      simp
    · rw [if_neg heq, lookup_filter_of_keep (fun k => k ≠ "name") (by simpa using heq), JsValue.get]
      cases fields.lookup key <;> simp [List.lookup_cons, beq_false_of_ne heq]
  | _ =>
    by_cases heq : key = "name" <;> simp [JsValue.get, List.lookup_cons, heq, beq_false_of_ne]

/-- Sanitising a mode keeps it there. -/
theorem truthy_normalizeServerType {v : JsValue} (h : truthy v = true) :
    truthy (normalizeServerType v) = true := by
  cases v with
  | bool b => cases b <;> rfl
  | _ => exact h

/-- The current options of a plugin that has been started with a flat configuration. -/
theorem configuredList_started_flat {rest : List (String × JsValue)}
    (hconnections : JsValue.get (.obj rest) "connections" = .undefined)
    (htype : truthy (JsValue.get (.obj rest) "serverType") = true) :
    ∃ started, configuredList host (.obj (assignFields rest
        (entriesOf (sanitizeConnectionConfig (.obj rest))))) = some [started] ∧
      sanitizeConnectionConfig started = sanitizeConnectionConfig (withName (.obj rest)
        (.str (host.textOr (JsValue.get (.obj rest) "name") "default"))) := by
  have hget := get_assign_sanitize rest
  set started := JsValue.obj (assignFields rest (entriesOf (sanitizeConnectionConfig (.obj rest))))
  have hnone : started.get "connections" = .undefined := by
    rcases hget "connections" with h | h
    · rw [h, hconnections]
    · rw [h, sanitize_eq]
      exact (propertyOf_tabulate nodup_VALID_CONNECTION_KEYS _ _).trans (if_neg (by decide))
  have hsome : truthy (started.get "serverType") = true := by
    rcases hget "serverType" with h | h
    · rw [h, htype]
    · rw [h, get_sanitize_serverType]
      exact truthy_normalizeServerType htype
  have hname : started.get "name" = JsValue.get (.obj rest) "name" := by
    rcases hget "name" with h | h
    · exact h
    · rw [h, get_sanitize_kept _ (by decide) (by decide) (by decide)]
  refine ⟨_, by rw [configuredList, hnone, if_pos hsome], sanitize_congr fun key hkey => ?_⟩
  rw [hname, get_withName, get_withName]
  split_ifs with heq
  · exact Or.inl rfl
  · rw [get_sanitize_withName _ _ hkey heq]
    exact hget key

/-- A configuration without a list of connections. -/
theorem parseConnectionList_flat (deps : ManagerDeps) {options : JsValue}
    (h : ∀ c connections, options.get "connections" ≠ .arr (c :: connections)) :
    parseConnectionList deps options =
      if truthy (options.get "serverType") then some [asConnection deps options] else none := by
  rw [parseConnectionList]
  split
  next c connections heq => exact absurd heq (h c connections)
  next => rfl

theorem startedOptions_flat {options : JsValue}
    (h : ∀ c connections, options.get "connections" ≠ .arr (c :: connections)) :
    startedOptions options =
      if truthy (options.get "serverType") then
        let rest := (entriesOf options).filter (·.1 ≠ "connections")
        .obj (assignFields rest (entriesOf (sanitizeConnectionConfig (.obj rest))))
      else options := by
  rw [startedOptions]
  split
  next c connections heq => exact absurd heq (h c connections)
  next => rfl

/-- **Starting the plugin** keeps what the configuration says: the current options configure what
the manager has parsed, up to sanitising. -/
theorem configuredList_startedOptions {toLowerCase : String → String} {options : JsValue}
    {connections : List JsValue}
    (h : parseConnectionList (hostDeps host toLowerCase) options = some connections) :
    ∃ current, configuredList host (startedOptions options) = some current ∧
      current.map sanitizeConnectionConfig = connections.map sanitizeConnectionConfig := by
  by_cases hlist : ∃ c connections, options.get "connections" = .arr (c :: connections)
  · obtain ⟨c, connections', hlist⟩ := hlist
    rw [parseConnectionList, hlist] at h
    obtain rfl := Option.some.inj h
    rw [startedOptions, hlist]
    refine ⟨_, configuredList_withConnections options (c :: connections'), ?_⟩
    rw [List.map_map]
    exact List.map_congr_left fun c _ => sanitize_sanitize c
  · push Not at hlist
    rw [parseConnectionList_flat _ hlist] at h
    rw [startedOptions_flat hlist]
    split_ifs at h with htype
    obtain rfl := Option.some.inj h
    rw [if_pos htype]
    have hobject : ∃ fields, options = .obj fields := by
      cases options <;> first | exact ⟨_, rfl⟩ | cases htype
    obtain ⟨fields, rfl⟩ := hobject
    have hkept : ∀ key, key ≠ "connections" →
        JsValue.get (.obj (fields.filter (·.1 ≠ "connections"))) key =
          JsValue.get (.obj fields) key := fun key hkey =>
      congrArg (·.getD JsValue.undefined)
        (lookup_filter_of_keep (fun k => k ≠ "connections") (by simpa using hkey) fields)
    have hnone : JsValue.get (.obj (fields.filter (·.1 ≠ "connections"))) "connections" =
        .undefined := by
      have hlookup : (fields.filter (·.1 ≠ "connections")).lookup "connections" = none := by
        rw [← Option.not_isSome_iff_eq_none, lookup_isSome_iff]
        simp
      rw [JsValue.get, hlookup]
      rfl
    obtain ⟨started, hstarted, hsanitize⟩ := configuredList_started_flat hnone
      (by rwa [hkept _ (by decide)])
    refine ⟨_, hstarted, ?_⟩
    rw [List.map_singleton, List.map_singleton, hsanitize, sanitize_asConnection,
      hkept _ (by decide)]
    refine congrArg (fun c => [c]) (sanitize_congr fun key hkey => Or.inl ?_)
    rw [get_withName, get_withName]
    split_ifs
    · rfl
    · exact hkept key (ne_of_mem_of_not_mem hkey (by decide))

theorem configuredList_startedOptions_none {toLowerCase : String → String} {options : JsValue}
    {current : List JsValue} (h : parseConnectionList (hostDeps host toLowerCase) options = none)
    (hcurrent : configuredList host (startedOptions options) = some current) : current = [] := by
  by_cases hlist : ∃ c connections, options.get "connections" = .arr (c :: connections)
  · obtain ⟨c, connections', hlist⟩ := hlist
    rw [parseConnectionList, hlist] at h
    cases h
  · push Not at hlist
    rw [parseConnectionList_flat _ hlist] at h
    split_ifs at h with htype
    rw [startedOptions_flat hlist, if_neg htype, configuredList, if_neg htype] at hcurrent
    split at hcurrent
    next items hitems =>
      cases items with
      | nil => exact (Option.some.inj hcurrent).symm
      | cons c items => exact absurd hitems (hlist c items)
    next => cases hcurrent

end Configured

/-! ## Whole runs -/

section Runs

variable {host : ConfigHost} {toLowerCase : String → String} {s : PluginState}

/-- **What holds whatever the interleaving**: while instances are registered, the current options
configure connections that can be started, and so do the options of every restart that has been
asked for; at any time, a list that the current options configure is empty or can be started. -/
structure Managed (host : ConfigHost) (s : PluginState) : Prop where
  current : ∀ connections, configuredList host s.currentOptions = some connections →
    connections = [] ∨ Startable host connections
  configured : s.instances ≠ [] → ∃ connections,
    configuredList host s.currentOptions = some connections ∧ Startable host connections
  restarts : ∀ nextOptions ∈ s.restarts, ∃ options connections,
    nextOptions = withConnections options connections ∧ Startable host connections

theorem Managed.getCurrentConnectionsConfig (h : Managed host s) :
    getCurrentConnectionsConfig host s = [] ∨
      Startable host (getCurrentConnectionsConfig host s) := by
  rw [getCurrentConnectionsConfig_eq]
  cases hlist : configuredList host s.currentOptions with
  | some connections => exact h.current connections hlist
  | none =>
    have hinstances : s.instances = [] := by
      by_contra hne
      obtain ⟨connections, hconnections, -⟩ := h.configured hne
      rw [hlist] at hconnections
      cases hconnections
    rw [hinstances]
    exact Or.inl rfl

/-- What a restart is asked for with. -/
theorem restart_of_restartWithConnections {connections : List JsValue} {successStatus status : ℕ}
    {nextOptions : JsValue}
    (h : restartWithConnections s connections successStatus = .restart nextOptions status) :
    connections ≠ [] ∧ nextOptions = withConnections s.currentOptions connections := by
  rw [restartWithConnections] at h
  split_ifs at h with hhandler hempty
  exact ⟨hempty, (InstanceReply.restart.inj h).1.symm⟩

/-- **What a request makes of the list of connections**, when it is not refused. -/
inductive Accepted (host : ConfigHost) (toLowerCase : String → String) (current : List JsValue) :
    InstanceRequest → List JsValue → Prop
  | create {body : JsValue}
      (hvalid : validateConnectionConfig host.toConfigPlatform
        (sanitizeConnectionConfig (orEmpty body)) "" = none)
      (hports : validateUniqueServerPorts host
        (current ++ [sanitizeConnectionConfig (orEmpty body)]) = none) :
      Accepted host toLowerCase current (.create body)
        (current ++ [sanitizeConnectionConfig (orEmpty body)])
  | update {id : String} {body connection updated : JsValue} {patch : List (String × JsValue)} {i : ℕ}
      (hbody : orEmpty body = .obj patch) (hpatch : patchError (patch.map Prod.fst) = none)
      (hid : (deriveConnectionIds toLowerCase current)[i]? = some id)
      (hconnection : current[i]? = some connection)
      (hupdated : updated =
        sanitizeConnectionConfig (.obj (assignFields (entriesOf connection) patch)))
      (hvalid : validateConnectionConfig host.toConfigPlatform updated "" = none)
      (hports : validateUniqueServerPorts host (current.set i updated) = none) :
      Accepted host toLowerCase current (.update id body) (current.set i updated)
  | delete {id : String} {i : ℕ}
      (hid : (deriveConnectionIds toLowerCase current)[i]? = some id)
      (hrest : current.eraseIdx i ≠ []) :
      Accepted host toLowerCase current (.delete id) (current.eraseIdx i)

theorem length_connectionIdsFrom (used : List String) (connections : List JsValue) :
    (connectionIdsFrom toLowerCase used connections).length = connections.length := by
  induction connections generalizing used with
  | nil => rfl
  | cons config connections ih =>
    rw [connectionIdsFrom, List.length_cons, List.length_cons, ih]

/-- Where an id is found, there is a connection. -/
theorem getElem?_of_find {connections : List JsValue} {id : String}
    (h : findConnectionIndexByInstanceId toLowerCase connections id ≠ -1) :
    ∃ (i : ℕ) (connection : JsValue),
      findConnectionIndexByInstanceId toLowerCase connections id = i ∧
      (deriveConnectionIds toLowerCase connections)[i]? = some id ∧
      connections[i]? = some connection := by
  rw [findConnectionIndexByInstanceId] at h ⊢
  cases hfind : (deriveConnectionIds toLowerCase connections).findIdx? (· = id) with
  | none => exact absurd (by rw [hfind]) h
  | some i =>
    obtain ⟨hi, hid, -⟩ := List.findIdx?_eq_some_iff_getElem.1 hfind
    have hlength : i < connections.length := by
      rwa [deriveConnectionIds, length_connectionIdsFrom] at hi
    refine ⟨i, connections[i], rfl, ?_, List.getElem?_eq_getElem hlength⟩
    rw [List.getElem?_eq_getElem hi]
    simpa using hid

/-- A request that is not refused asks for a restart with what it makes of the list. -/
theorem reply_restart {r : InstanceRequest} {nextOptions : JsValue} {status : ℕ}
    (h : reply host toLowerCase s r = .restart nextOptions status) :
    ∃ connections, Accepted host toLowerCase (getCurrentConnectionsConfig host s) r connections ∧
      connections ≠ [] ∧ nextOptions = withConnections s.currentOptions connections := by
  cases r with
  | create body =>
    rw [reply, createInstance] at h
    dsimp only at h
    split_ifs at h
    split at h
    · cases h
    next hvalid =>
      split at h
      · cases h
      next hports =>
        obtain ⟨hne, hnext⟩ := restart_of_restartWithConnections h
        exact ⟨_, .create hvalid hports, hne, hnext⟩
  | update id body =>
    rw [reply, updateInstance] at h
    dsimp only at h
    split_ifs at h with hbundle hobject hempty hfound
    obtain ⟨i, connection, hi, hid, hconnection⟩ := getElem?_of_find hfound
    obtain ⟨patch, hpatch⟩ : ∃ patch, orEmpty body = .obj patch := by
      cases hbody : orEmpty body with
      | obj patch => exact ⟨patch, rfl⟩
      | _ => rw [hbody] at hobject; exact absurd rfl hobject
    rw [hpatch, hi, Int.toNat_natCast, List.getD_eq_getElem?_getD, hconnection] at h
    split at h
    · cases h
    next hfields =>
      split at h
      · cases h
      next hvalid =>
        split at h
        · cases h
        next hports =>
          obtain ⟨hne, hnext⟩ := restart_of_restartWithConnections h
          exact ⟨_, .update hpatch hfields hid hconnection rfl hvalid hports, hne, hnext⟩
  | delete id =>
    rw [reply, deleteInstance] at h
    dsimp only at h
    split_ifs at h with hbundle hfound
    obtain ⟨i, connection, hi, hid, hconnection⟩ := getElem?_of_find hfound
    rw [hi, Int.toNat_natCast, ← List.eraseIdx_eq_take_drop_succ] at h
    obtain ⟨hne, hnext⟩ := restart_of_restartWithConnections h
    exact ⟨_, .delete hid hne, hne, hnext⟩

/-- **One request keeps what can be started**: the connection it writes has been validated, the
ports have been compared, and taking a connection away repeats no port. -/
theorem Accepted.startable {current next : List JsValue} {r : InstanceRequest}
    (h : Accepted host toLowerCase current r next)
    (hcurrent : current = [] ∨ Startable host current) : Startable host next := by
  have hvalid : ∀ c ∈ current,
      validateConnectionConfig host.toConfigPlatform (sanitizeConnectionConfig c) "" = none := by
    rcases hcurrent with rfl | hcurrent
    · intro c hc
      cases hc
    · exact hcurrent.valid
  cases h with
  | create hnew hports =>
    refine ⟨List.concat_ne_nil _ _, ?_, hports⟩
    rw [List.forall_mem_append, List.forall_mem_singleton, sanitize_sanitize]
    exact ⟨hvalid, hnew⟩
  | update _ _ _ hconnection hupdated hnew hports =>
    refine ⟨fun hnil => ?_, fun c hc => ?_, hports⟩
    · rw [List.set_eq_nil_iff] at hnil
      rw [hnil] at hconnection
      cases hconnection
    · rcases List.mem_or_eq_of_mem_set hc with hc | rfl
      · exact hvalid c hc
      · rw [hupdated, sanitize_sanitize, ← hupdated]
        exact hnew
  | delete hid hrest =>
    refine ⟨hrest, fun c hc => hvalid c (List.mem_of_mem_eraseIdx hc), ?_⟩
    rcases hcurrent with rfl | hcurrent
    · exact absurd rfl hrest
    · rw [validateUniqueServerPorts_eq_none]
      exact (validateUniqueServerPorts_eq_none.1 hcurrent.ports).sublist
        ((List.eraseIdx_sublist ..).filterMap _)

/-- The server starts the plugin with the options of a restart that has been asked for, with what
`POST /plugin-config` saves, or with a configuration of its own that can be started. -/
def StartsStartable (host : ConfigHost) (toLowerCase : String → String) (s : PluginState) :
    PluginEvent → Prop
  | .start options _ => options ∈ s.restarts ∨
      (∃ persistedConfig body, finalConfig host persistedConfig body = .ok options) ∨
      ∀ connections, parseConnectionList (hostDeps host toLowerCase) options = some connections →
        Startable host connections
  | _ => True

theorem Managed.new : Managed host PluginState.new where
  current connections h := by cases h
  configured h := absurd rfl h
  restarts _ h := nomatch h

theorem Managed.asked (h : Managed host s) {options : JsValue} {connections : List JsValue}
    (hconnections : Startable host connections) :
    Managed host { s with restarts := s.restarts ++ [withConnections options connections] } where
  current := h.current
  configured := h.configured
  restarts := by
    rw [List.forall_mem_append, List.forall_mem_singleton]
    exact ⟨h.restarts, _, _, rfl, hconnections⟩

theorem Managed.restarted (h : Managed host s) {i : ℕ} {nextOptions : JsValue}
    (hi : s.restarts[i]? = some nextOptions) (ok : Bool) :
    Managed host { s with
      currentOptions := if ok then nextOptions else s.currentOptions
      restarts := s.restarts.eraseIdx i } := by
  obtain ⟨options, connections, rfl, hconnections⟩ := h.restarts _ (List.mem_of_getElem? hi)
  refine ⟨fun current hcurrent => ?_, fun hinstances => ?_,
    fun next hnext => h.restarts next (List.mem_of_mem_eraseIdx hnext)⟩
  · cases ok with
    | false => exact h.current current hcurrent
    | true =>
      rw [if_pos rfl, configuredList_withConnections] at hcurrent
      obtain rfl := Option.some.inj hcurrent
      exact Or.inr (startable_map_sanitize.2 hconnections)
  · cases ok with
    | false => exact h.configured hinstances
    | true =>
      exact ⟨_, configuredList_withConnections options connections,
        startable_map_sanitize.2 hconnections⟩

/-- A list of connections is parsed as it is. -/
theorem parseConnectionList_of_list {options : JsValue} {connections : List JsValue}
    (h : options.get "connections" = .arr (connections.map sanitizeConnectionConfig))
    (hne : connections ≠ []) :
    parseConnectionList (hostDeps host toLowerCase) options =
      some (connections.map sanitizeConnectionConfig) := by
  obtain ⟨c, connections, rfl⟩ := List.exists_cons_of_ne_nil hne
  rw [parseConnectionList, h]
  rfl

/-- The options of a restart are parsed into the list that was asked for. -/
theorem parseConnectionList_withConnections {options : JsValue} {connections : List JsValue}
    (h : connections ≠ []) :
    parseConnectionList (hostDeps host toLowerCase) (withConnections options connections) =
      some (connections.map sanitizeConnectionConfig) :=
  parseConnectionList_of_list (by rw [get_withConnections, if_pos rfl]) h

theorem connectionListOf_ne_nil (body : JsValue) : connectionListOf body ≠ .ok [] := by
  rw [connectionListOf.eq_def]
  split
  · split
    · simp
    next items hitems heq => simpa using hitems
    · split_ifs <;> simp
  · simp

/-- What `POST /plugin-config` saves can be started. -/
theorem startable_of_finalConfig {persistedConfig body saved : JsValue}
    (h : finalConfig host persistedConfig body = .ok saved) :
    ∃ connections, saved.get "connections" = .arr (connections.map sanitizeConnectionConfig) ∧
      Startable host connections := by
  obtain ⟨posted, restored, hposted, hrestored, hvalid, hsaved, -⟩ := finalConfig_cases h
  have hports : validateUniqueServerPorts host (restored.map sanitizeConnectionConfig) = none := by
    rw [finalConfig, hposted] at h
    simp only [hrestored, bind, Except.bind] at h
    split at h
    · cases h
    next hnone => exact ((Option.orElse_eq_none _ _).1 hnone).2
  have hlist : saved.get "connections" = .arr (restored.map sanitizeConnectionConfig) := by
    rw [finalConfig, hposted] at h
    simp only [hrestored, bind, Except.bind] at h
    split at h
    · cases h
    · cases h
      rfl
  have hlength : restored.length = posted.length := by
    rw [← (forall₂_of_mapM_ok hrestored).length_eq, List.length_zipIdx]
  have hne : restored ≠ [] := by
    rintro rfl
    rw [List.eq_nil_of_length_eq_zero hlength.symm] at hposted
    exact connectionListOf_ne_nil body hposted
  refine ⟨restored, hlist, startable_map_sanitize.1 ⟨by simpa using hne, fun c hc => ?_, hports⟩⟩
  obtain ⟨i, hi⟩ := List.mem_iff_getElem?.1 hc
  obtain ⟨p, hp⟩ := validate_of_firstValidationError hvalid hi
  obtain ⟨r, -, rfl⟩ := List.mem_map.1 hc
  rw [sanitize_sanitize]
  exact (validate_label p "").1 hp

theorem Managed.started (h : Managed host s) {options : JsValue} {canRestart : Bool}
    (hstart : StartsStartable host toLowerCase s (.start options canRestart)) :
    Managed host { s with
      currentOptions := startedOptions options
      canRestart := canRestart
      instances := registeredInstances host toLowerCase options } := by
  have hstartable : ∀ connections,
      parseConnectionList (hostDeps host toLowerCase) options = some connections →
        Startable host connections := by
    rcases hstart with hmem | ⟨persistedConfig, body, hsaved⟩ | hstart
    · obtain ⟨options', connections, rfl, hconnections⟩ := h.restarts _ hmem
      rw [parseConnectionList_withConnections hconnections.nonempty]
      exact fun _ heq => Option.some.inj heq ▸ startable_map_sanitize.2 hconnections
    · obtain ⟨connections, hlist, hconnections⟩ := startable_of_finalConfig hsaved
      rw [parseConnectionList_of_list hlist hconnections.nonempty]
      exact fun _ heq => Option.some.inj heq ▸ startable_map_sanitize.2 hconnections
    · exact hstart
  cases hparse : parseConnectionList (hostDeps host toLowerCase) options with
  | some connections =>
    obtain ⟨current, hcurrent, hsanitize⟩ := configuredList_startedOptions hparse
    have hstarted : Startable host current := by
      rw [← startable_map_sanitize, hsanitize, startable_map_sanitize]
      exact hstartable connections hparse
    refine ⟨fun current' hcurrent' => Or.inr ?_, fun _ => ⟨current, hcurrent, hstarted⟩, h.restarts⟩
    exact Option.some.inj (hcurrent.symm.trans hcurrent') ▸ hstarted
  | none =>
    refine ⟨fun current' hcurrent' => Or.inl (configuredList_startedOptions_none hparse hcurrent'),
      fun hinstances => ?_, h.restarts⟩
    rw [registeredInstances, hparse] at hinstances
    exact absurd rfl hinstances

theorem Managed.step (h : Managed host s) (e : PluginEvent)
    (hstart : StartsStartable host toLowerCase s e) :
    Managed host (pluginStep host toLowerCase s e) := by
  cases e with
  | request r =>
    rw [pluginStep]
    cases hreply : reply host toLowerCase s r with
    | error status message => exact h
    | restart nextOptions status =>
      obtain ⟨connections, haccepted, -, rfl⟩ := reply_restart hreply
      exact h.asked (haccepted.startable h.getCurrentConnectionsConfig)
  | restarted i ok =>
    rw [pluginStep]
    cases hi : s.restarts[i]? with
    | none => exact h
    | some nextOptions => exact h.restarted hi ok
  | start options canRestart => exact h.started hstart
  | stop => exact ⟨fun connections hnone => (by cases hnone), fun hne => absurd rfl hne, h.restarts⟩
  | startFailed => exact ⟨h.current, fun hne => absurd rfl hne, h.restarts⟩

/-- **No request leads out of the configurations that can be started**: whatever requests, restarts,
starts and stops have come in whatever order, a request that is not refused restarts the plugin with
a list of connections that the manager takes as it is and starts one instance each for. -/
theorem managed_run {es : List PluginEvent}
    (hes : Along (pluginStep host toLowerCase) (StartsStartable host toLowerCase) .new es) :
    let s := run (pluginStep host toLowerCase) .new es
    Managed host s ∧ ∀ r nextOptions status,
      reply host toLowerCase s r = .restart nextOptions status →
      ∃ connections, connections ≠ [] ∧
        parseConnectionList (hostDeps host toLowerCase) nextOptions = some connections ∧
        prepareConnectionList (hostDeps host toLowerCase) connections = some connections ∧
        (registeredInstances host toLowerCase nextOptions).map (·.options) = connections ∧
        ∀ key, key ≠ "connections" → nextOptions.get key = s.currentOptions.get key := by
  intro s
  have hmanaged : Managed host s := Along.invariant (fun s e h hC => h.step e hC) Managed.new hes
  refine ⟨hmanaged, fun r nextOptions status hreply => ?_⟩
  obtain ⟨connections, haccepted, hne, rfl⟩ := reply_restart hreply
  have hstartable := haccepted.startable hmanaged.getCurrentConnectionsConfig
  have hparse : parseConnectionList (hostDeps host toLowerCase)
      (withConnections s.currentOptions connections) =
        some (connections.map sanitizeConnectionConfig) := parseConnectionList_withConnections hne
  have hprepare := prepareConnectionList_startable toLowerCase (startable_map_sanitize.2 hstartable)
  have hidem : (connections.map sanitizeConnectionConfig).map sanitizeConnectionConfig =
      connections.map sanitizeConnectionConfig := by
    rw [List.map_map]
    exact List.map_congr_left fun c _ => sanitize_sanitize c
  rw [hidem] at hprepare
  refine ⟨_, by simpa using hne, hparse, hprepare, ?_, fun key hkey => ?_⟩
  · rw [registeredInstances, hparse, Option.bind_some, hprepare]
    rw [List.map_map, show (fun b : InstanceBundle => b.options) ∘ _ = Prod.snd from rfl,
      List.map_snd_zip]
    rw [deriveConnectionIds, length_connectionIdsFrom]
  · rw [get_withConnections, if_neg hkey]

end Runs

/-! ## One request -/

section Effect

variable {host : ConfigHost} {toLowerCase : String → String}

/-! ### The ids -/

theorem connectionIdsFrom_congr {as bs : List JsValue}
    (h : as.map nameOfConfig = bs.map nameOfConfig) (used : List String) :
    connectionIdsFrom toLowerCase used as = connectionIdsFrom toLowerCase used bs := by
  induction as generalizing bs used with
  | nil =>
    cases bs with
    | nil => rfl
    | cons b bs => cases h
  | cons a as ih =>
    cases bs with
    | nil => cases h
    | cons b bs =>
      rw [List.map_cons, List.map_cons, List.cons.injEq] at h
      rw [connectionIdsFrom, connectionIdsFrom, h.1]
      exact congrArg _ (ih h.2 _)

theorem connectionIdsFrom_append (used : List String) (as bs : List JsValue) :
    connectionIdsFrom toLowerCase used (as ++ bs) =
      connectionIdsFrom toLowerCase used as ++
        connectionIdsFrom toLowerCase (used ++ connectionIdsFrom toLowerCase used as) bs := by
  induction as generalizing used with
  | nil => simp [connectionIdsFrom]
  | cons a as ih =>
    rw [List.cons_append, connectionIdsFrom, connectionIdsFrom, ih, List.append_assoc,
      List.singleton_append, List.cons_append]

/-- The first ids are those of the first connections. -/
theorem take_deriveConnectionIds (connections : List JsValue) (i : ℕ) :
    (deriveConnectionIds toLowerCase connections).take i =
      deriveConnectionIds toLowerCase (connections.take i) := by
  rcases le_total i connections.length with hi | hi
  · have hlength : (deriveConnectionIds toLowerCase (connections.take i)).length = i := by
      rw [deriveConnectionIds, length_connectionIdsFrom, List.length_take, min_eq_left hi]
    conv_lhs => rw [← List.take_append_drop i connections]
    rw [deriveConnectionIds, connectionIdsFrom_append]
    exact List.take_left' hlength
  · rw [List.take_of_length_le hi, List.take_of_length_le]
    rwa [deriveConnectionIds, length_connectionIdsFrom]

theorem nameOfConfig_sanitize {c : JsValue} (hc : ∃ fields, c = .obj fields) :
    nameOfConfig (sanitizeConnectionConfig c) = nameOfConfig c := by
  obtain ⟨fields, rfl⟩ := hc
  have htruthy : truthy (sanitizeConnectionConfig (.obj fields)) = true := by
    rw [sanitize_eq]
    rfl
  rw [nameOfConfig, nameOfConfig, htruthy, get_sanitize_kept _ (by decide) (by decide) (by decide)]
  rfl

theorem isObject_getCurrentConnectionsConfig {s : PluginState} :
    ∀ c ∈ getCurrentConnectionsConfig host s, ∃ fields, c = .obj fields := by
  intro c hc
  rw [getCurrentConnectionsConfig] at hc
  split at hc
  · obtain ⟨v, -, rfl⟩ := List.mem_map.1 hc
    exact spreadConnection_eq v
  · split_ifs at hc
    · exact ⟨_, List.mem_singleton.1 hc⟩
    · obtain ⟨b, -, rfl⟩ := List.mem_map.1 hc
      exact ⟨_, rfl⟩

/-- Sanitising the connections changes no id. -/
theorem deriveConnectionIds_sanitize {connections : List JsValue}
    (h : ∀ c ∈ connections, ∃ fields, c = .obj fields) :
    deriveConnectionIds toLowerCase (connections.map sanitizeConnectionConfig) =
      deriveConnectionIds toLowerCase connections := by
  refine connectionIdsFrom_congr ?_ []
  rw [List.map_map]
  exact List.map_congr_left fun c hc => nameOfConfig_sanitize (h c hc)

/-- The instance that runs under an id runs the connection with that id, as long as the options are
those that the plugin was started with. -/
theorem options_of_bundle {s : PluginState} {options : JsValue} {b : InstanceBundle} {id : String}
    {i : ℕ} (hcurrent : s.currentOptions = startedOptions options)
    (hinstances : s.instances = registeredInstances host toLowerCase options)
    (hbundle : getBundleById s id = some b)
    (hid : (deriveConnectionIds toLowerCase (getCurrentConnectionsConfig host s))[i]? = some id) :
    ((getCurrentConnectionsConfig host s).map sanitizeConnectionConfig)[i]? = some b.options := by
  rw [getBundleById, hinstances, registeredInstances] at hbundle
  cases hparse : parseConnectionList (hostDeps host toLowerCase) options with
  | none =>
    rw [hparse] at hbundle
    cases hbundle
  | some parsed =>
    obtain ⟨current, hlist, hsanitize⟩ := configuredList_startedOptions hparse
    have hget : getCurrentConnectionsConfig host s = current := by
      rw [getCurrentConnectionsConfig_eq, hcurrent, hlist]
      rfl
    have hobject : ∀ c ∈ current, ∃ fields, c = .obj fields :=
      hget ▸ isObject_getCurrentConnectionsConfig
    rw [hget] at hid ⊢
    cases hprepare : prepareConnectionList (hostDeps host toLowerCase) parsed with
    | none =>
      rw [hparse, Option.bind_some, hprepare] at hbundle
      cases hbundle
    | some prepared =>
      obtain rfl : current.map sanitizeConnectionConfig = prepared := by
        rw [prepareConnectionList] at hprepare
        dsimp only at hprepare
        split_ifs at hprepare
        exact hsanitize.trans (Option.some.inj hprepare)
      rw [hparse, Option.bind_some, hprepare] at hbundle
      dsimp only at hbundle
      rw [deriveConnectionIds_sanitize hobject, List.find?_map, Option.map_eq_some_iff] at hbundle
      obtain ⟨⟨id', c⟩, hfind, rfl⟩ := hbundle
      obtain rfl : id' = id := by simpa using List.find?_some hfind
      obtain ⟨j, hj⟩ := List.mem_iff_getElem?.1 (List.mem_of_find?_eq_some hfind)
      obtain ⟨hj, hc⟩ := List.getElem?_zip_eq_some.1 hj
      have hnodup : (deriveConnectionIds toLowerCase current).Nodup :=
        connectionIdsFrom_nodup toLowerCase List.nodup_nil current
      obtain rfl : i = j := (List.getElem?_inj (List.getElem?_eq_some_iff.1 hid).1 hnodup).1
        (hid.trans hj.symm)
      exact hc

/-! ### A patched connection -/

theorem patchError_eq_none {keys : List String} (h : patchError keys = none) {key : String}
    (hkey : key ∈ keys) : key ∉ immutableFields ∧ key ∈ mutableAllowed := by
  have herror := List.findSome?_eq_none_iff.1 h key hkey
  split_ifs at herror with himmutable hallowed
  exact ⟨himmutable, hallowed⟩

/-- What only the version of a client strips is the fields of the ping monitor. -/
theorem mem_strippedKeys_iff {serverType v w : JsValue} {key : String}
    (hkey : key ∉ pingMonitorKeys) : key ∈ strippedKeys serverType v ↔ key ∈ strippedKeys serverType w := by
  unfold strippedKeys
  split_ifs <;> simp [hkey]

/-- What an update makes of a property of `connection`: nothing is left of what the mode and the new
version do not use, a property of the patch takes effect, and any other one stays. One of the ping
monitor is taken from the connection as it is configured, where sanitising may have hidden it. -/
def patchedProperty (connection : JsValue) (patch : List (String × JsValue)) (version : JsValue)
    (key : String) : JsValue :=
  let c := sanitizeConnectionConfig connection
  if key ∈ strippedKeys (c.get "serverType") version then .undefined
  else if key ∈ patch.map Prod.fst then
    if key = "protocolVersion" then coercedVersion (JsValue.get (.obj patch) key)
    else JsValue.get (.obj patch) key
  else if key ∈ pingMonitorKeys then connection.get key
  else c.get key

section Patched

variable {fields patch : List (String × JsValue)}

theorem get_patched_of_notMem {key : String} (hkey : key ∉ patch.map Prod.fst) :
    JsValue.get (.obj (assignFields fields patch)) key = JsValue.get (.obj fields) key := by
  have hnone : patch.reverse.lookup key = none := by
    rw [← Option.not_isSome_iff_eq_none, lookup_isSome_iff, List.map_reverse, List.mem_reverse]
    exact hkey
  show ((assignFields fields patch).lookup key).getD JsValue.undefined = _
  rw [lookup_assignFields, hnone]
  rfl

theorem get_patched_of_mem (hnodup : (patch.map Prod.fst).Nodup) {key : String}
    (hkey : key ∈ patch.map Prod.fst) :
    JsValue.get (.obj (assignFields fields patch)) key = JsValue.get (.obj patch) key := by
  obtain ⟨v, hv⟩ := Option.isSome_iff_exists.1 (lookup_isSome_iff.2 hkey)
  rw [get_assignFields hnodup, JsValue.get, hv]
  rfl

variable (h : patchError (patch.map Prod.fst) = none)
include h

theorem get_patched_immutable {key : String} (hkey : key ∈ immutableFields) :
    JsValue.get (.obj (assignFields fields patch)) key = JsValue.get (.obj fields) key :=
  get_patched_of_notMem fun hmem => (patchError_eq_none h hmem).1 hkey

/-- A patch leaves the mode, the port and the key of a connection alone. -/
theorem get_sanitize_patched_immutable {key : String} (hkey : key ∈ immutableFields) :
    (sanitizeConnectionConfig (.obj (assignFields fields patch))).get key =
      (sanitizeConnectionConfig (.obj fields)).get key := by
  have htype : JsValue.get (.obj (assignFields fields patch)) "serverType" =
      JsValue.get (.obj fields) "serverType" := get_patched_immutable h (by decide)
  have hcases : key = "serverType" ∨ key = "udpPort" ∨ key = "secretKey" := by
    simpa [immutableFields] using hkey
  rcases hcases with rfl | rfl | rfl
  · rw [get_sanitize_serverType, get_sanitize_serverType, htype]
  · rw [get_sanitize_kept _ (by decide) (by decide) (by decide),
      get_sanitize_kept _ (by decide) (by decide) (by decide), get_patched_immutable h hkey]
  · rw [get_sanitize_kept _ (by decide) (by decide) (by decide),
      get_sanitize_kept _ (by decide) (by decide) (by decide), get_patched_immutable h hkey]

/-- A property that is not in the patch is left alone, unless it is one of the ping monitor, which
goes with the version. -/
theorem get_sanitize_patched_of_notMem {key : String} (hvalid : key ∈ VALID_CONNECTION_KEYS)
    (hping : key ∉ pingMonitorKeys) (hkey : key ∉ patch.map Prod.fst) :
    (sanitizeConnectionConfig (.obj (assignFields fields patch))).get key =
      (sanitizeConnectionConfig (.obj fields)).get key := by
  have hget : JsValue.get (.obj (assignFields fields patch)) key = JsValue.get (.obj fields) key :=
    get_patched_of_notMem hkey
  have htype : JsValue.get (.obj (assignFields fields patch)) "serverType" =
      JsValue.get (.obj fields) "serverType" := get_patched_immutable h (by decide)
  by_cases hother : key ∈ rewrittenKeys
  · have hcases : key = "serverType" ∨ key = "protocolVersion" ∨ key = "connectionId" := by
      simpa [rewrittenKeys] using hother
    rcases hcases with rfl | rfl | rfl
    · rw [get_sanitize_serverType, get_sanitize_serverType, hget]
    · rw [get_sanitize_protocolVersion, get_sanitize_protocolVersion, hget]
    · rw [get_sanitize_connectionId, get_sanitize_connectionId, hget]
  · rw [get_sanitize_other _ hvalid hother, get_sanitize_other _ hvalid hother, htype, hget,
      if_congr (mem_strippedKeys_iff hping) rfl rfl]

/-- **An update, property by property.** -/
theorem get_sanitize_patched (hnodup : (patch.map Prod.fst).Nodup) {key : String}
    (hvalid : key ∈ VALID_CONNECTION_KEYS) :
    (sanitizeConnectionConfig (.obj (assignFields fields patch))).get key =
      patchedProperty (.obj fields) patch
        ((sanitizeConnectionConfig (.obj (assignFields fields patch))).get "protocolVersion") key := by
  have htype : JsValue.get (.obj (assignFields fields patch)) "serverType" =
      JsValue.get (.obj fields) "serverType" := get_patched_immutable h (by decide)
  rw [patchedProperty, get_sanitize_serverType, get_sanitize_protocolVersion]
  split_ifs with hstripped hmem hversion hping
  · rw [get_sanitize _ hvalid, sanitizedProperty, htype]
    exact if_pos hstripped
  · rw [hversion] at hmem ⊢
    rw [get_sanitize_protocolVersion, get_patched_of_mem hnodup hmem]
  · have hkeys : ∀ k ∈ mutableAllowed, k ≠ "protocolVersion" → k ∉ rewrittenKeys := by decide
    rw [get_sanitize_other _ hvalid (hkeys key (patchError_eq_none h hmem).2 hversion), htype,
      if_neg hstripped, get_patched_of_mem hnodup hmem]
  · have hother : ∀ k ∈ pingMonitorKeys, k ∉ rewrittenKeys := by decide
    rw [get_sanitize_other _ hvalid (hother key hping), htype, if_neg hstripped,
      get_patched_of_notMem hmem]
  · exact get_sanitize_patched_of_notMem h hvalid hping hmem

/-- An update without a name keeps the one that the id is derived from. -/
theorem nameOfConfig_patched (hname : "name" ∉ patch.map Prod.fst) :
    nameOfConfig (sanitizeConnectionConfig (.obj (assignFields fields patch))) =
      nameOfConfig (sanitizeConnectionConfig (.obj fields)) := by
  have htruthy : ∀ c, truthy (sanitizeConnectionConfig c) = true := fun c => by
    rw [sanitize_eq]
    rfl
  rw [nameOfConfig, nameOfConfig, htruthy, htruthy,
    get_sanitize_patched_of_notMem h (by decide) (by decide) hname]

end Patched

/-- **What one request does**, to the list of the configured connections, sanitised, and to their
ids. -/
def Effect (host : ConfigHost) (toLowerCase : String → String) (configured next : List JsValue) :
    InstanceRequest → Prop
  | .create body => ∃ c id, next = configured.map sanitizeConnectionConfig ++ [c] ∧
      c = sanitizeConnectionConfig (orEmpty body) ∧
      validateConnectionConfig host.toConfigPlatform c "" = none ∧
      id ∉ deriveConnectionIds toLowerCase configured ∧
      deriveConnectionIds toLowerCase next = deriveConnectionIds toLowerCase configured ++ [id]
  | .update id body => ∃ (i : ℕ) (connection c' : JsValue) (patch : List (String × JsValue)),
      orEmpty body = .obj patch ∧ (∀ key ∈ patch.map Prod.fst, key ∈ mutableAllowed) ∧
      (deriveConnectionIds toLowerCase configured)[i]? = some id ∧
      configured[i]? = some connection ∧
      c' = sanitizeConnectionConfig (.obj (assignFields (entriesOf connection) patch)) ∧
      next = (configured.map sanitizeConnectionConfig).set i c' ∧
      validateConnectionConfig host.toConfigPlatform c' "" = none ∧
      (∀ key ∈ immutableFields, c'.get key = (sanitizeConnectionConfig connection).get key) ∧
      ((patch.map Prod.fst).Nodup → ∀ key ∈ VALID_CONNECTION_KEYS,
        c'.get key = patchedProperty connection patch (c'.get "protocolVersion") key) ∧
      ("name" ∉ patch.map Prod.fst →
        deriveConnectionIds toLowerCase next = deriveConnectionIds toLowerCase configured)
  | .delete id => ∃ i : ℕ, (deriveConnectionIds toLowerCase configured)[i]? = some id ∧
      next = (configured.map sanitizeConnectionConfig).eraseIdx i ∧
      (deriveConnectionIds toLowerCase next).take i =
        (deriveConnectionIds toLowerCase configured).take i

/-- **The effect of a request that is not refused.** The list of connections gets one more, or has
one replaced or taken away, the one whose id the request names; every other connection is as it was,
sanitised, and so are the other options. An update writes the patch over the connection and
sanitises what this gives: it changes neither the mode nor the port nor the key, a property of the
patch takes effect where the mode uses it, and any other one stays, but for those of the ping
monitor, which go with a version of 2 or more (`patchedProperty`). The ids of the connections before
the one that is taken away stay, a new connection gets a new id, and an update without a name
changes no id. And while the current options and the instances are those of one start, the
connection that is replaced or taken away is the one that the named instance runs. -/
theorem request_effect {s : PluginState} {r : InstanceRequest} {nextOptions : JsValue} {status : ℕ}
    (h : reply host toLowerCase s r = .restart nextOptions status) :
    let configured := getCurrentConnectionsConfig host s
    Effect host toLowerCase configured (connectionsOf nextOptions) r ∧
      connectionsOf nextOptions ≠ [] ∧
      (∀ key, key ≠ "connections" → nextOptions.get key = s.currentOptions.get key) ∧
      ∀ options b id (i : ℕ), s.currentOptions = startedOptions options →
        s.instances = registeredInstances host toLowerCase options →
        getBundleById s id = some b → (deriveConnectionIds toLowerCase configured)[i]? = some id →
        (configured.map sanitizeConnectionConfig)[i]? = some b.options := by
  intro configured
  have hobject : ∀ c ∈ configured, ∃ fields, c = .obj fields := isObject_getCurrentConnectionsConfig
  set current := configured.map sanitizeConnectionConfig with hsanitized
  have hids : deriveConnectionIds toLowerCase current =
      deriveConnectionIds toLowerCase configured := deriveConnectionIds_sanitize hobject
  obtain ⟨connections, haccepted, hne, rfl⟩ := reply_restart h
  have hnext : connectionsOf (withConnections s.currentOptions connections) =
      connections.map sanitizeConnectionConfig := by
    rw [connectionsOf, get_withConnections, if_pos rfl]
  have hfixed : ∀ c, sanitizeConnectionConfig (sanitizeConnectionConfig c) =
      sanitizeConnectionConfig c := sanitize_sanitize
  refine ⟨?_, by rw [hnext]; simpa using hne,
    fun key hkey => by rw [get_withConnections, if_neg hkey],
    fun options b id i hcurrent hinstances hbundle hid =>
      options_of_bundle hcurrent hinstances hbundle hid⟩
  rw [hnext]
  cases haccepted with
  | @create body hvalid hports =>
    rw [List.map_append, List.map_singleton, hfixed, ← hsanitized]
    have hsplit : deriveConnectionIds toLowerCase
        (current ++ [sanitizeConnectionConfig (orEmpty body)]) =
        deriveConnectionIds toLowerCase current ++ connectionIdsFrom toLowerCase
          ([] ++ deriveConnectionIds toLowerCase current) [sanitizeConnectionConfig (orEmpty body)] :=
      connectionIdsFrom_append [] _ _
    have hnodup := connectionIdsFrom_nodup toLowerCase List.nodup_nil
      (current ++ [sanitizeConnectionConfig (orEmpty body)])
    rw [List.nil_append, ← deriveConnectionIds, hsplit, connectionIdsFrom,
      connectionIdsFrom] at hnodup
    rw [connectionIdsFrom, connectionIdsFrom] at hsplit
    rw [hids] at hnodup hsplit
    refine ⟨_, _, rfl, rfl, hvalid, fun hmem => ?_, hsplit⟩
    exact (List.disjoint_of_nodup_append hnodup) hmem (List.mem_singleton_self _)
  | @update id body connection updated patch i hbody hpatch hid hconnection hupdated hvalid hports =>
    obtain ⟨fields, rfl⟩ := hobject _ (List.mem_of_getElem? hconnection)
    have hfix : sanitizeConnectionConfig updated = updated := by rw [hupdated, hfixed]
    rw [List.map_set, hfix, ← hsanitized]
    refine ⟨i, .obj fields, updated, patch, hbody,
      fun key hkey => (patchError_eq_none hpatch hkey).2, hid, hconnection, hupdated, rfl, hvalid,
      fun key hkey => ?_, fun hnodup key hkey => ?_, fun hname => ?_⟩
    · rw [hupdated]
      exact get_sanitize_patched_immutable hpatch hkey
    · rw [hupdated]
      exact get_sanitize_patched hpatch hnodup hkey
    · rw [← hids]
      refine connectionIdsFrom_congr ?_ []
      -- the names are what they were
      rw [List.map_set, hupdated, nameOfConfig_patched hpatch hname]
      have hold : (current.map nameOfConfig)[i]? =
          some (nameOfConfig (sanitizeConnectionConfig (.obj fields))) := by
        rw [hsanitized, List.getElem?_map, List.getElem?_map, hconnection]
        rfl
      obtain ⟨hi, hget⟩ := List.getElem?_eq_some_iff.1 hold
      rw [entriesOf, ← hget, List.set_getElem_self]
  | @delete id i hid hrest =>
    rw [← List.eraseIdx_map, ← hsanitized]
    refine ⟨i, hid, rfl, ?_⟩
    rw [← hids, take_deriveConnectionIds, take_deriveConnectionIds,
      List.take_eraseIdx_eq_take_of_le _ _ _ le_rfl]

end Effect

/-! ## Examples -/

/-- A configuration with one boat. -/
def oneBoat : JsValue :=
  .obj [("connections", .arr [
      .obj (exampleClient "boat" "client" "kP3xV9mQ7zR2tW8nB5cD1fG6hJ4sL0aY")]),
    ("managementApiToken", .str "harbour")]

/-- A second client with the same name. -/
def secondBoat : InstanceRequest :=
  .create (.obj (exampleClient "boat" "client" "ZYXWVUTSRQPONMLKJIHGFEDCBA654321"))

/-- The plugin has been started with one boat, and a second one has been asked for. -/
def boatEvents : List PluginEvent := [.start oneBoat true, .request secondBoat]

/-- The options of a restart. -/
def InstanceReply.nextOptions : InstanceReply → JsValue
  | .restart nextOptions _ => nextOptions
  | .error _ _ => .undefined

theorem managed_run_boat :
    let s := run (pluginStep exampleHost String.toLower) .new boatEvents
    let answer := reply exampleHost String.toLower s secondBoat
    answer = .restart answer.nextOptions 201 ∧ s.restarts = [answer.nextOptions] ∧
      (registeredInstances exampleHost String.toLower answer.nextOptions).map (·.options) =
        connectionsOf answer.nextOptions := by
  intro s answer
  have hanswer : answer = .restart answer.nextOptions 201 := by decide +kernel
  have hstart : ∀ connections, parseConnectionList (hostDeps exampleHost String.toLower) oneBoat =
      some connections → Startable exampleHost connections := by
    intro connections h
    obtain rfl := Option.some.inj h
    exact ⟨List.cons_ne_nil _ _, by decide +kernel, by decide +kernel⟩
  have hes : Along (pluginStep exampleHost String.toLower)
      (StartsStartable exampleHost String.toLower) .new boatEvents :=
    ⟨Or.inr (Or.inr hstart), trivial, trivial⟩
  obtain ⟨connections, -, hparse, -, hinstances, -⟩ := (managed_run hes).2 secondBoat _ _ hanswer
  have hconnections : connections = connectionsOf answer.nextOptions := by
    have heq : parseConnectionList (hostDeps exampleHost String.toLower) answer.nextOptions =
        some (connectionsOf answer.nextOptions) := by decide +kernel
    exact Option.some.inj (hparse.symm.trans heq)
  exact ⟨hanswer, by decide +kernel, hinstances.trans hconnections⟩

theorem request_effect_boat :
    let s := run (pluginStep exampleHost String.toLower) .new [.start oneBoat true]
    let r := InstanceRequest.update "boat" (.obj [("name", .str "Shore 1")])
    let answer := reply exampleHost String.toLower s r
    answer = .restart answer.nextOptions 200 ∧
      answer.nextOptions.get "managementApiToken" = .str "harbour" ∧
      (connectionsOf answer.nextOptions).map (·.get "secretKey") =
        [.str "kP3xV9mQ7zR2tW8nB5cD1fG6hJ4sL0aY"] ∧
      deriveConnectionIds String.toLower (connectionsOf answer.nextOptions) = ["shore-1"] := by
  intro s r answer
  have hanswer : answer = .restart answer.nextOptions 200 := by decide +kernel
  obtain ⟨-, -, hother, -⟩ := request_effect hanswer
  exact ⟨hanswer, (hother "managementApiToken" (by decide)).trans (by decide +kernel),
    by decide +kernel, by decide +kernel⟩

end EdgeLink
