import EdgeLink.Client.Congestion
import EdgeLink.Codec.Delta
import EdgeLink.Codec.JsText

/-!
# Connection configurations

`connection-config.ts`: a configuration that a user writes is validated, which gives the first error
or none, and sanitised, which keeps the recognised keys, rewrites legacy values and strips what the
mode of the connection does not use.

What the validation takes from elsewhere is a parameter: the error of `validateSecretKey` for a key,
and the comparison of values that are not both numbers.

* `sanitize_eq`: key by key, what sanitising makes of a configuration.
* `validate_sanitize`: a valid configuration stays valid.
* `sanitize_sanitize`: sanitising is idempotent, on every value.
* `accepted_of_valid`: the options of a valid client are accepted options, as the retransmit queue
  and the congestion controller take them.
-/

namespace EdgeLink

/-- What the validation takes from elsewhere. -/
structure ConfigPlatform where
  /-- the message of the error that `validateSecretKey` throws, if it throws -/
  secretKeyError : JsValue → Option String
  /-- `a > b`, where one of them is no number -/
  greaterThan : JsValue → JsValue → Bool

def VALID_CONNECTION_KEYS : List String :=
  ["connectionId", "name", "serverType", "udpPort", "secretKey", "stretchAsciiKey",
    "authenticatedHeaders", "epochBoundAuth", "useMsgpack", "useValueDedup", "useCompactDeltas",
    "pathFilter", "usePathDictionary", "brotliQuality", "pathPrecision", "pathThrottle",
    "enableNotifications", "skipOwnData", "protocolVersion", "udpAddress", "helloMessageSender",
    "heartbeatInterval", "testAddress", "testPort", "pingIntervalTime",
    "requestFullStatusOnRestart", "reliability", "congestionControl", "bonding",
    "alertThresholds"]

def SENDER_ONLY_KEYS : List String :=
  ["pathFilter", "pathPrecision", "pathThrottle", "brotliQuality", "useValueDedup",
    "useCompactDeltas", "heartbeatInterval"]

namespace ConnectionConfig

/-! ## Errors -/

/-- An error, when its condition holds. -/
def errorIf (condition : Prop) [Decidable condition] (message : String) : Option String :=
  if condition then some message else none

/-- The error of a property that may be left out. -/
def optional (v : JsValue) (error : JsValue → Option String) : Option String :=
  if v = .undefined then none else error v

def firstError (errors : List (Option String)) : Option String := errors.findSome? id

def isObject : JsValue → Bool
  | .obj _ => true
  | _ => false

/-- The enumerable properties of an object. -/
def entriesOf : JsValue → List (String × JsValue)
  | .obj fields => fields
  | _ => []

def isFiniteNumber : JsValue → Bool
  | .num (.finite _) => true
  | _ => false

/-- The value of a finite number. -/
def numberOf : JsValue → ℚ
  | .num (.finite q) => q
  | _ => 0

/-- A whole number in a range. -/
def integerIn (v : JsValue) (min max : ℕ) : Bool :=
  match v with
  | .num (.finite q) => q.den = 1 ∧ min ≤ q ∧ q ≤ max
  | _ => false

def isValidPort (v : JsValue) (min : ℕ) : Bool := integerIn v min 65535

/-- A text that is not empty. -/
def isText : JsValue → Bool
  | .str s => s ≠ ""
  | _ => false

def isString : JsValue → Bool
  | .str _ => true
  | _ => false

/-! ## The fields -/

def normalizeServerType : JsValue → JsValue
  | .bool true => .str "server"
  | .bool false => .str "client"
  | serverType => serverType

/-- The protocol version that a value stands for. -/
def resolvedVersion : JsValue → JsNumber
  | .str "basic" => .finite 1
  | .str "advanced" => .finite 3
  | .num n => n
  | _ => .finite 1

/-- A version below the reliable protocols. -/
def isLegacyVersion (protocolVersion : JsValue) : Bool :=
  (resolvedVersion protocolVersion).lt (.finite 2)

section Fields

variable (platform : ConfigPlatform) (p : String)

def protocolVersionError (protocolVersion : JsValue) : Option String :=
  errorIf (protocolVersion ∉ [.undefined, .num (.finite 1), .num (.finite 2), .num (.finite 3),
    .str "basic", .str "advanced"])
    (p ++ "protocolVersion must be 1 or 3 (legacy 2 is accepted and coerced to 3; aliases: " ++
      "\"basic\" / \"advanced\")")

def epochBoundAuthError (conn : JsValue) : Option String :=
  if conn.get "epochBoundAuth" = .bool true then
    firstError [
      errorIf (conn.get "authenticatedHeaders" = .bool false) (p ++ "epochBoundAuth requires " ++
        "authenticatedHeaders (the epoch is bound into that same tag)"),
      errorIf (isLegacyVersion (conn.get "protocolVersion"))
        (p ++ "epochBoundAuth requires protocolVersion 3")]
  else none

def useCompactDeltasError (conn : JsValue) : Option String :=
  if conn.get "useCompactDeltas" = .bool true then
    firstError [
      errorIf (isLegacyVersion (conn.get "protocolVersion"))
        (p ++ "useCompactDeltas is only supported on reliable protocolVersion 3"),
      errorIf (conn.get "useMsgpack" ≠ .bool true)
        (p ++ "useCompactDeltas requires useMsgpack to be enabled")]
  else none

/-- One of the two lists of a path filter. -/
def pathListError (pathFilter : JsValue) (key : String) : Option String :=
  optional (pathFilter.get key) fun list =>
    match list with
    | .arr items =>
      firstError (items.mapIdx fun i item =>
        errorIf (isText item = false)
          (p ++ "pathFilter." ++ key ++ "[" ++ toString i ++ "] must be a non-empty string"))
    | _ => some (p ++ "pathFilter." ++ key ++ " must be an array of strings")

def pathFilterError (pathFilter : JsValue) : Option String :=
  if isObject pathFilter then
    firstError ((entriesOf pathFilter).map (fun e =>
        errorIf (e.1 ≠ "allow" ∧ e.1 ≠ "deny")
          (p ++ "pathFilter." ++ e.1 ++ " is not a supported property")) ++
      ["allow", "deny"].map (pathListError p pathFilter))
  else some (p ++ "pathFilter must be an object")

def brotliQualityError (brotliQuality : JsValue) : Option String :=
  errorIf (integerIn brotliQuality 0 11 = false)
    (p ++ "brotliQuality must be an integer between 0 and 11")

def pathPrecisionError (pathPrecision : JsValue) : Option String :=
  if isObject pathPrecision then
    firstError ((entriesOf pathPrecision).map fun e =>
      errorIf (integerIn e.2 0 15 = false)
        (p ++ "pathPrecision[\"" ++ e.1 ++ "\"] must be an integer between 0 and 15"))
  else some (p ++ "pathPrecision must be an object mapping path to integer 0..15")

/-- One rule of a throttle. -/
def throttleRuleError (path : String) (rule : JsValue) : Option String :=
  let label := p ++ "pathThrottle[\"" ++ path ++ "\"]"
  if isObject rule then
    firstError ((entriesOf rule).map (fun e =>
        errorIf (e.1 ≠ "minIntervalMs" ∧ e.1 ≠ "deadband")
          (label ++ "." ++ e.1 ++ " is not a supported property")) ++
      [optional (rule.get "minIntervalMs") fun v =>
          errorIf (integerIn v 0 3600000 = false)
            (label ++ ".minIntervalMs must be an integer between 0 and 3600000"),
        optional (rule.get "deadband") fun v =>
          errorIf (isFiniteNumber v = false ∨ numberOf v < 0)
            (label ++ ".deadband must be a non-negative number")])
  else some (label ++ " must be an object")

def pathThrottleError (pathThrottle : JsValue) : Option String :=
  if isObject pathThrottle then
    firstError ((entriesOf pathThrottle).map fun e => throttleRuleError p e.1 e.2)
  else some (p ++ "pathThrottle must be an object mapping path to a rule")

def nameError : JsValue → Option String
  | .str name => errorIf (40 < utf16Length name) (p ++ "name must be a string of at most 40 characters")
  | _ => some (p ++ "name must be a string of at most 40 characters")

def connectionIdError : JsValue → Option String
  | .str connectionId =>
    errorIf (trim connectionId = "" ∨ 80 < utf16Length (trim connectionId))
      (p ++ "connectionId must be a non-empty string of at most 80 characters")
  | _ => some (p ++ "connectionId must be a non-empty string of at most 80 characters")

def helloMessageSenderError (helloMessageSender : JsValue) : Option String :=
  errorIf (integerIn helloMessageSender 10 3600 = false)
    (p ++ "helloMessageSender must be an integer between 10 and 3600 (seconds)")

def pingIntervalTimeError (pingIntervalTime : JsValue) : Option String :=
  errorIf (isFiniteNumber pingIntervalTime = false ∨
      numberOf pingIntervalTime < roundFinite (1 / 10) ∨ 60 < numberOf pingIntervalTime)
    (p ++ "pingIntervalTime must be a number between 0.1 and 60 (minutes)")

/-- What only a client is asked for. -/
def clientErrors (conn : JsValue) : List (Option String) :=
  errorIf (isText (conn.get "udpAddress") = false) (p ++ "udpAddress is required in client mode") ::
  if isLegacyVersion (conn.get "protocolVersion") then
    [errorIf (isText (conn.get "testAddress") = false)
        (p ++ "testAddress is required in v1 client mode"),
      errorIf (isValidPort (conn.get "testPort") 1 = false)
        (p ++ "testPort must be between 1 and 65535 in v1 client mode"),
      optional (conn.get "pingIntervalTime") (pingIntervalTimeError p)]
  else
    ["testAddress", "testPort", "pingIntervalTime"].map fun key =>
      errorIf (conn.get key ≠ .undefined)
        (p ++ key ++ " is only supported on v1 clients (protocolVersion 1)")

/-- The thresholds of one metric. -/
def thresholdError (metric : String) (threshold : JsValue) : Option String :=
  let label := p ++ "alertThresholds." ++ metric
  if metric ∉ ["rtt", "packetLoss", "retransmitRate", "jitter", "queueDepth"] then
    some (p ++ "alertThresholds: unknown metric '" ++ metric ++ "'")
  else if isObject threshold = false then some (label ++ " must be an object")
  else
    let warning := threshold.get "warning"
    let critical := threshold.get "critical"
    firstError ([
      optional warning fun v =>
        errorIf (isFiniteNumber v = false) (label ++ ".warning must be a finite number"),
      optional critical fun v =>
        errorIf (isFiniteNumber v = false) (label ++ ".critical must be a finite number")] ++
      (if metric ∈ ["packetLoss", "retransmitRate"] then
        [optional warning fun v =>
          errorIf (numberOf v < 0 ∨ 1 < numberOf v) (label ++ ".warning must be between 0 and 1"),
        optional critical fun v =>
          errorIf (numberOf v < 0 ∨ 1 < numberOf v) (label ++ ".critical must be between 0 and 1")]
      else
        [optional warning fun v =>
          errorIf (numberOf v ≤ 0) (label ++ ".warning must be > 0"),
        optional critical fun v =>
          errorIf (numberOf v ≤ 0) (label ++ ".critical must be > 0")]) ++
      [optional warning fun w => optional critical fun c =>
        errorIf (numberOf c < numberOf w) (label ++ ".warning must be <= critical")])

def alertThresholdsError (alertThresholds : JsValue) : Option String :=
  if isObject alertThresholds then
    firstError ((entriesOf alertThresholds).map fun e => thresholdError p e.1 e.2)
  else some (p ++ "alertThresholds must be an object")

/-- `a > b` -/
def jsGreater : JsValue → JsValue → Bool
  | .num a, .num b => b.lt a
  | a, b => platform.greaterThan a b

/-- The numeric fields of a server's reliability options, with their ranges. -/
def serverReliabilityChecks : List (String × ℕ × ℕ) :=
  [("ackInterval", 20, 5000),
    ("ackResendInterval", 100, 10000),
    ("nakTimeout", 20, 5000),
    ("maxNakRounds", 1, 25)]

/-- The reliability options: on a server the two retransmit ages are compared without a check of
their types. -/
def reliabilityError (isServer : Bool) (reliability : JsValue) : Option String :=
  if isObject reliability then
    firstError ((if isServer then serverReliabilityChecks else reliabilityChecks).map (fun check =>
        numberRangeError reliability check.1 check.2.1 check.2.2 (p ++ "reliability." ++ check.1)) ++
      [booleanError reliability "forceDrainAfterAckIdle" (p ++ "reliability.forceDrainAfterAckIdle"),
        booleanError reliability "recoveryBurstEnabled" (p ++ "reliability.recoveryBurstEnabled"),
        optional (reliability.get "retransmitMinAge") fun min =>
          optional (reliability.get "retransmitMaxAge") fun max =>
            errorIf (jsGreater platform min max)
              (p ++ "reliability.retransmitMinAge must be <= retransmitMaxAge")])
  else some (p ++ "reliability must be an object")

/-- One of the two links of a bonded connection. -/
def bondingLinkError (linkKey : String) (link : JsValue) : Option String :=
  let label := p ++ "bonding." ++ linkKey
  if isObject link then
    firstError [
      optional (link.get "address") fun v =>
        errorIf (isString v = false) (label ++ ".address must be a string"),
      optional (link.get "port") fun v =>
        errorIf (isValidPort v 1024 = false) (label ++ ".port must be between 1024 and 65535"),
      optional (link.get "interface") fun v =>
        errorIf (isString v = false) (label ++ ".interface must be a string")]
  else some (label ++ " must be an object")

/-- Both links have the same address and the same port. -/
def sameLink (primary backup : JsValue) : Bool :=
  ["address", "port"].all fun key =>
    primary.get key ≠ .undefined ∧ backup.get key ≠ .undefined ∧ primary.get key = backup.get key

/-- A ratio: its bounds are the doubles nearest to 0.01 and 0.5. -/
def lossThresholdError (lossThreshold : JsValue) : Option String :=
  errorIf (isFiniteNumber lossThreshold = false ∨ numberOf lossThreshold < roundFinite (1 / 100) ∨
      1 / 2 < numberOf lossThreshold)
    (p ++ "bonding.failover.lossThreshold must be a number between 0.01 and 0.5")

def failoverError (failover : JsValue) : Option String :=
  let range := fun key min max =>
    numberRangeError failover key min max (p ++ "bonding.failover." ++ key)
  if isObject failover then
    firstError [range "rttThreshold" 100 5000,
      optional (failover.get "lossThreshold") (lossThresholdError p),
      range "healthCheckInterval" 500 10000, range "failbackDelay" 5000 300000,
      range "heartbeatTimeout" 1000 30000]
  else some (p ++ "bonding.failover must be an object")

def bondingError (bonding : JsValue) : Option String :=
  if isObject bonding then
    firstError ([booleanError bonding "enabled" (p ++ "bonding.enabled"),
        optional (bonding.get "mode") fun mode =>
          errorIf (mode ≠ .str "main-backup") (p ++ "bonding.mode must be 'main-backup'")] ++
      ["primary", "backup"].map (fun linkKey =>
        optional (bonding.get linkKey) (bondingLinkError p linkKey)) ++
      [errorIf (isObject (bonding.get "primary") ∧ isObject (bonding.get "backup") ∧
            sameLink (bonding.get "primary") (bonding.get "backup"))
          (p ++ "bonding primary and backup links must use different address:port combinations"),
        optional (bonding.get "failover") (failoverError p)])
  else some (p ++ "bonding must be an object")

/-! ## Validation -/

/-- The errors of a connection, the first one first. -/
def connectionErrors (conn : JsValue) : List (Option String) :=
  let serverType := normalizeServerType (conn.get "serverType")
  [errorIf (serverType ≠ .str "server" ∧ serverType ≠ .str "client")
      (p ++ "serverType must be 'server' or 'client'"),
    booleanError conn "epochBoundAuth" (p ++ "epochBoundAuth")] ++
  (if serverType = .str "server" then
    ["congestionControl", "bonding", "alertThresholds", "skipOwnData"].map fun key =>
      errorIf (conn.get key ≠ .undefined) (p ++ key ++ " is not supported in server mode")
  else []) ++
  [errorIf (isValidPort (conn.get "udpPort") 1024 = false)
      (p ++ "udpPort must be an integer between 1024 and 65535"),
    (platform.secretKeyError (conn.get "secretKey")).map (p ++ ·),
    protocolVersionError p (conn.get "protocolVersion"),
    booleanError conn "useMsgpack" (p ++ "useMsgpack"),
    booleanError conn "useValueDedup" (p ++ "useValueDedup"),
    booleanError conn "useCompactDeltas" (p ++ "useCompactDeltas"),
    epochBoundAuthError p conn,
    errorIf (conn.get "useValueDedup" = .bool true ∧ isLegacyVersion (conn.get "protocolVersion"))
      (p ++ "useValueDedup is only supported on reliable protocolVersion 3"),
    useCompactDeltasError p conn,
    optional (conn.get "pathFilter") (pathFilterError p),
    optional (conn.get "brotliQuality") (brotliQualityError p),
    optional (conn.get "pathPrecision") (pathPrecisionError p),
    optional (conn.get "pathThrottle") (pathThrottleError p),
    booleanError conn "usePathDictionary" (p ++ "usePathDictionary"),
    booleanError conn "stretchAsciiKey" (p ++ "stretchAsciiKey"),
    booleanError conn "authenticatedHeaders" (p ++ "authenticatedHeaders"),
    booleanError conn "enableNotifications" (p ++ "enableNotifications"),
    booleanError conn "skipOwnData" (p ++ "skipOwnData"),
    optional (conn.get "name") (nameError p),
    optional (conn.get "connectionId") (connectionIdError p),
    optional (conn.get "helloMessageSender") (helloMessageSenderError p),
    numberRangeError conn "heartbeatInterval" 5000 120000 (p ++ "heartbeatInterval")] ++
  (if serverType = .str "client" then clientErrors p conn else []) ++
  [optional (conn.get "alertThresholds") (alertThresholdsError p),
    optional (conn.get "reliability") (reliabilityError platform p (serverType = .str "server")),
    optional (conn.get "bonding") (bondingError p),
    validateCongestionControl p (conn.get "congestionControl")]

end Fields

end ConnectionConfig

open ConnectionConfig

/-- The first error of a connection, `none` when it is valid. -/
def validateConnectionConfig (platform : ConfigPlatform) (connection : JsValue) (p : String) :
    Option String :=
  if isObject connection then firstError (connectionErrors platform p connection)
  else some ((if p = "" then "connection" else p) ++ " must be an object")

/-! ## Sanitising -/

namespace ConnectionConfig

/-- The recognised properties that are there. -/
def recognised (conn : JsValue) : List (String × JsValue) :=
  VALID_CONNECTION_KEYS.filterMap fun key =>
    if conn.get key = .undefined then none else some (key, conn.get key)

def propertyOf (out : List (String × JsValue)) (key : String) : JsValue :=
  (out.lookup key).getD .undefined

/-- The aliases are resolved before the coercion of version 2. -/
def coerceProtocolVersion (out : List (String × JsValue)) : List (String × JsValue) :=
  let out :=
    if propertyOf out "protocolVersion" = .str "basic" then
      setField out "protocolVersion" (.num (.finite 1))
    else if propertyOf out "protocolVersion" = .str "advanced" then
      setField out "protocolVersion" (.num (.finite 3))
    else out
  if propertyOf out "protocolVersion" = .num (.finite 2) then
    setField out "protocolVersion" (.num (.finite 3))
  else out

def trimConnectionId (out : List (String × JsValue)) : List (String × JsValue) :=
  match propertyOf out "connectionId" with
  | .str connectionId => setField out "connectionId" (.str (trim connectionId))
  | _ => out

def deleteKeys (keys : List String) (out : List (String × JsValue)) : List (String × JsValue) :=
  out.filter (·.1 ∉ keys)

/-- What a server does not use. -/
def clientOnlyKeys : List String :=
  ["udpAddress", "helloMessageSender", "testAddress", "testPort", "pingIntervalTime",
    "congestionControl", "bonding", "alertThresholds", "skipOwnData"] ++ SENDER_ONLY_KEYS

/-- The fields of the ping monitor. -/
def pingMonitorKeys : List String := ["testAddress", "testPort", "pingIntervalTime"]

/-- `(typeof v === "number" ? v : 1) >= 2` -/
def isReliableVersion : JsValue → Bool
  | .num n => (JsNumber.finite 2).lt n || n = .finite 2
  | _ => false

def writeServerType (serverType : JsValue) (out : List (String × JsValue)) :
    List (String × JsValue) :=
  if serverType = .undefined then out else setField out "serverType" serverType

/-- Strip what the mode of the connection does not use. -/
def stripUnused (serverType : JsValue) (out : List (String × JsValue)) : List (String × JsValue) :=
  if serverType = .str "server" then deleteKeys clientOnlyKeys out
  else if serverType = .str "client" then
    if isReliableVersion (propertyOf out "protocolVersion") then deleteKeys pingMonitorKeys out
    else out
  else out

end ConnectionConfig

def sanitizeConnectionConfig (connection : JsValue) : JsValue :=
  if connection.isObjectType = false ∨ connection = .null then .obj []
  else
    let serverType := normalizeServerType (connection.get "serverType")
    .obj (stripUnused serverType (writeServerType serverType
      (trimConnectionId (coerceProtocolVersion (recognised connection)))))

namespace ConnectionConfig

/-! ### Key by key -/

/-- The properties that `g` gives, for the keys `keys`. -/
def tabulate (keys : List String) (g : String → JsValue) : List (String × JsValue) :=
  keys.filterMap fun key => if g key = .undefined then none else some (key, g key)

theorem tabulate_cons (key : String) (keys : List String) (g : String → JsValue) :
    tabulate (key :: keys) g =
      if g key = .undefined then tabulate keys g else (key, g key) :: tabulate keys g := by
  rw [tabulate, List.filterMap_cons]
  split_ifs <;> rfl

theorem tabulate_congr {keys : List String} {g g' : String → JsValue}
    (h : ∀ key ∈ keys, g key = g' key) : tabulate keys g = tabulate keys g' :=
  List.filterMap_congr fun key hkey => by rw [h key hkey]

theorem propertyOf_tabulate {keys : List String} (hkeys : keys.Nodup) (g : String → JsValue)
    (key : String) : propertyOf (tabulate keys g) key = if key ∈ keys then g key else .undefined := by
  induction keys with
  | nil => rfl
  | cons key' keys ih =>
    obtain ⟨hnot, hkeys⟩ := List.nodup_cons.1 hkeys
    have hrest := ih hkeys
    rw [tabulate_cons]
    by_cases hkey : key = key'
    · subst hkey
      rw [if_neg hnot] at hrest
      rw [if_pos List.mem_cons_self]
      split_ifs with hundefined
      · rw [hrest, hundefined]
      · simp [propertyOf]
    · have hmem : key ∈ key' :: keys ↔ key ∈ keys := by simp [hkey]
      rw [if_congr hmem rfl rfl]
      split_ifs at hrest ⊢ <;> simpa [propertyOf, List.lookup_cons, beq_false_of_ne hkey] using hrest

/-- Writing a property that is there. -/
theorem setField_tabulate {keys : List String} (hkeys : keys.Nodup) {g : String → JsValue}
    {key : String} (hkey : key ∈ keys) (hthere : g key ≠ .undefined) {v : JsValue}
    (hv : v ≠ .undefined) :
    setField (tabulate keys g) key v = tabulate keys (Function.update g key v) := by
  induction keys with
  | nil => nomatch hkey
  | cons key' keys ih =>
    obtain ⟨hnot, hkeys⟩ := List.nodup_cons.1 hkeys
    rw [tabulate_cons, tabulate_cons]
    by_cases heq : key' = key
    · subst heq
      rw [if_neg hthere, Function.update_self, if_neg hv, setField, if_pos rfl]
      congr 1
      refine tabulate_congr fun key hmem => ?_
      rw [Function.update_of_ne (ne_of_mem_of_not_mem hmem hnot)]
    · have hrest := ih hkeys ((List.mem_cons.1 hkey).resolve_left (Ne.symm heq))
      rw [Function.update_of_ne heq]
      split_ifs
      · exact hrest
      · rw [setField, if_neg heq, hrest]

theorem deleteKeys_tabulate (deleted keys : List String) (g : String → JsValue) :
    deleteKeys deleted (tabulate keys g) =
      tabulate keys fun key => if key ∈ deleted then .undefined else g key := by
  induction keys with
  | nil => rfl
  | cons key keys ih =>
    rw [tabulate_cons, tabulate_cons]
    by_cases hdeleted : key ∈ deleted
    · rw [if_pos hdeleted, if_pos rfl, ← ih]
      split_ifs
      · rfl
      · simp [deleteKeys, hdeleted]
    · rw [if_neg hdeleted, ← ih]
      split_ifs
      · rfl
      · simp [deleteKeys, hdeleted]

/-- The version that a protocol version is coerced to. -/
def coercedVersion : JsValue → JsValue
  | .str "basic" => .num (.finite 1)
  | .str "advanced" => .num (.finite 3)
  | .num (.finite q) => .num (.finite (if q = 2 then 3 else q))
  | v => v

/-- Any other value is left as it is. -/
theorem coercedVersion_eq_self {v : JsValue} (hbasic : v ≠ .str "basic")
    (hadvanced : v ≠ .str "advanced") (htwo : v ≠ .num (.finite 2)) : coercedVersion v = v := by
  unfold coercedVersion
  split
  next => exact absurd rfl hbasic
  next => exact absurd rfl hadvanced
  next q =>
    have hq : q ≠ 2 := fun hq => htwo (by rw [hq])
    rw [if_neg hq]
  next => rfl

/-- A text without the white space at its ends. -/
def trimmedText : JsValue → JsValue
  | .str s => .str (trim s)
  | v => v

/-- The keys that the mode of a connection strips. -/
def strippedKeys (serverType protocolVersion : JsValue) : List String :=
  if serverType = .str "server" then clientOnlyKeys
  else if serverType = .str "client" ∧ isReliableVersion protocolVersion then pingMonitorKeys
  else []

/-- What sanitising makes of each property. -/
def sanitizedProperty (conn : JsValue) (key : String) : JsValue :=
  let serverType := normalizeServerType (conn.get "serverType")
  let protocolVersion := coercedVersion (conn.get "protocolVersion")
  if key ∈ strippedKeys serverType protocolVersion then .undefined
  else if key = "serverType" then serverType
  else if key = "protocolVersion" then protocolVersion
  else if key = "connectionId" then trimmedText (conn.get "connectionId")
  else conn.get key

theorem nodup_VALID_CONNECTION_KEYS : VALID_CONNECTION_KEYS.Nodup := by decide

theorem propertyOf_valid (g : String → JsValue) {key : String}
    (hkey : key ∈ VALID_CONNECTION_KEYS) :
    propertyOf (tabulate VALID_CONNECTION_KEYS g) key = g key :=
  (propertyOf_tabulate nodup_VALID_CONNECTION_KEYS g key).trans (if_pos hkey)

theorem setField_valid {g : String → JsValue} {key : String}
    (hkey : key ∈ VALID_CONNECTION_KEYS) (hthere : g key ≠ .undefined) {v : JsValue}
    (hv : v ≠ .undefined) :
    setField (tabulate VALID_CONNECTION_KEYS g) key v =
      tabulate VALID_CONNECTION_KEYS (Function.update g key v) :=
  setField_tabulate nodup_VALID_CONNECTION_KEYS hkey hthere hv

theorem coerceProtocolVersion_tabulate (g : String → JsValue) :
    coerceProtocolVersion (tabulate VALID_CONNECTION_KEYS g) =
      tabulate VALID_CONNECTION_KEYS
        (Function.update g "protocolVersion" (coercedVersion (g "protocolVersion"))) := by
  have hkey : "protocolVersion" ∈ VALID_CONNECTION_KEYS := by decide
  rw [coerceProtocolVersion, propertyOf_valid g hkey]
  by_cases hbasic : g "protocolVersion" = .str "basic"
  · rw [if_pos hbasic, setField_valid hkey (by simp [hbasic]) (by simp), propertyOf_valid _ hkey,
      Function.update_self, if_neg (by decide), hbasic]
    rfl
  by_cases hadvanced : g "protocolVersion" = .str "advanced"
  · rw [if_neg hbasic, if_pos hadvanced, setField_valid hkey (by simp [hadvanced]) (by simp),
      propertyOf_valid _ hkey, Function.update_self, if_neg (by decide), hadvanced]
    rfl
  rw [if_neg hbasic, if_neg hadvanced, propertyOf_valid g hkey]
  by_cases htwo : g "protocolVersion" = .num (.finite 2)
  · rw [if_pos htwo, setField_valid hkey (by simp [htwo]) (by simp), htwo]
    rfl
  · rw [if_neg htwo, coercedVersion_eq_self hbasic hadvanced htwo, Function.update_eq_self]

theorem trimConnectionId_tabulate (g : String → JsValue) :
    trimConnectionId (tabulate VALID_CONNECTION_KEYS g) =
      tabulate VALID_CONNECTION_KEYS
        (Function.update g "connectionId" (trimmedText (g "connectionId"))) := by
  have hkey : "connectionId" ∈ VALID_CONNECTION_KEYS := by decide
  rw [trimConnectionId, propertyOf_valid g hkey]
  cases h : g "connectionId" with
  | str connectionId => exact setField_valid hkey (by simp [h]) (by simp)
  | _ =>
    dsimp only [trimmedText]
    rw [← h, Function.update_eq_self]

theorem tabulate_undefined {keys : List String} {g : String → JsValue}
    (h : ∀ key ∈ keys, g key = .undefined) : tabulate keys g = [] := by
  rw [tabulate_congr h]
  exact List.filterMap_eq_nil_iff.2 fun _ _ => rfl

theorem eq_undefined_of_normalize {serverType : JsValue}
    (h : normalizeServerType serverType = .undefined) : serverType = .undefined := by
  unfold normalizeServerType at h
  split at h
  · nomatch h
  · nomatch h
  · exact h

theorem writeServerType_tabulate {g : String → JsValue} {serverType : JsValue}
    (h : g "serverType" = .undefined ↔ serverType = .undefined) :
    writeServerType serverType (tabulate VALID_CONNECTION_KEYS g) =
      tabulate VALID_CONNECTION_KEYS (Function.update g "serverType" serverType) := by
  rw [writeServerType]
  split_ifs with hundefined
  · rw [hundefined, ← h.2 hundefined, Function.update_eq_self]
  · exact setField_valid (by decide) (mt h.1 hundefined) hundefined

theorem stripUnused_tabulate (serverType : JsValue) (g : String → JsValue) :
    stripUnused serverType (tabulate VALID_CONNECTION_KEYS g) =
      tabulate VALID_CONNECTION_KEYS fun key =>
        if key ∈ strippedKeys serverType (g "protocolVersion") then .undefined else g key := by
  rw [stripUnused, propertyOf_valid g (by decide), strippedKeys]
  by_cases hserver : serverType = .str "server"
  · rw [if_pos hserver, if_pos hserver, deleteKeys_tabulate]
  by_cases hclient : serverType = .str "client"
  · by_cases hreliable : isReliableVersion (g "protocolVersion") = true
    · rw [if_neg hserver, if_neg hserver, if_pos hclient, if_pos hreliable,
        if_pos ⟨hclient, hreliable⟩, deleteKeys_tabulate]
    · rw [if_neg hserver, if_neg hserver, if_pos hclient, if_neg hreliable,
        if_neg (fun h => hreliable h.2)]
      simp
  · rw [if_neg hserver, if_neg hserver, if_neg hclient, if_neg (fun h => hclient h.1)]
    simp

/-- **Key by key**: sanitising a configuration is a function of each property, given the mode and
the version. -/
theorem sanitize_eq (conn : JsValue) :
    sanitizeConnectionConfig conn =
      .obj (tabulate VALID_CONNECTION_KEYS (sanitizedProperty conn)) := by
  rw [sanitizeConnectionConfig]
  split_ifs with hobject
  · -- a value that is no object has no properties
    have hget : ∀ key, conn.get key = .undefined := by
      intro key
      cases conn <;> first | rfl | simp [JsValue.isObjectType] at hobject
    rw [tabulate_undefined fun key _ => ?_]
    simp [sanitizedProperty, hget, normalizeServerType, coercedVersion, trimmedText]
  · have hrecognised : recognised conn = tabulate VALID_CONNECTION_KEYS conn.get := rfl
    have htype : conn.get "serverType" = .undefined ↔
        normalizeServerType (conn.get "serverType") = .undefined := by
      constructor
      · intro h
        rw [h]
        rfl
      · exact eq_undefined_of_normalize
    dsimp only
    rw [hrecognised, coerceProtocolVersion_tabulate, trimConnectionId_tabulate,
      writeServerType_tabulate (by simpa using htype), stripUnused_tabulate]
    refine congrArg _ (tabulate_congr fun key _ => ?_)
    rw [sanitizedProperty]
    by_cases htypeKey : key = "serverType"
    · simp [htypeKey]
    by_cases hversion : key = "protocolVersion"
    · simp [hversion]
    by_cases hid : key = "connectionId"
    · simp [hid]
    simp [htypeKey, hversion, hid]

theorem get_sanitize (conn : JsValue) {key : String} (hkey : key ∈ VALID_CONNECTION_KEYS) :
    (sanitizeConnectionConfig conn).get key = sanitizedProperty conn key := by
  rw [sanitize_eq]
  exact (propertyOf_tabulate nodup_VALID_CONNECTION_KEYS _ key).trans (if_pos hkey)

/-- Writing a mode, a version and an identifier again changes nothing. -/
theorem normalizeServerType_normalizeServerType (serverType : JsValue) :
    normalizeServerType (normalizeServerType serverType) = normalizeServerType serverType := by
  cases serverType with
  | bool b => cases b <;> rfl
  | _ => rfl

theorem coercedVersion_coercedVersion (protocolVersion : JsValue) :
    coercedVersion (coercedVersion protocolVersion) = coercedVersion protocolVersion := by
  by_cases hbasic : protocolVersion = .str "basic"
  · rw [hbasic]
    decide +kernel
  by_cases hadvanced : protocolVersion = .str "advanced"
  · rw [hadvanced]
    decide +kernel
  by_cases htwo : protocolVersion = .num (.finite 2)
  · rw [htwo]
    decide +kernel
  · rw [coercedVersion_eq_self hbasic hadvanced htwo, coercedVersion_eq_self hbasic hadvanced htwo]

theorem trimmedText_trimmedText (v : JsValue) : trimmedText (trimmedText v) = trimmedText v := by
  cases v with
  | str s => exact congrArg JsValue.str (trim_trim s)
  | _ => rfl

/-- Only what a server does not use is ever stripped. -/
theorem mem_clientOnlyKeys_of_stripped {serverType protocolVersion : JsValue} {key : String}
    (h : key ∈ strippedKeys serverType protocolVersion) : key ∈ clientOnlyKeys := by
  have hping : ∀ key ∈ pingMonitorKeys, key ∈ clientOnlyKeys := by decide
  unfold strippedKeys at h
  split_ifs at h
  · exact h
  · exact hping key h
  · nomatch h

section Sanitised

variable (conn : JsValue)

theorem get_sanitize_serverType :
    (sanitizeConnectionConfig conn).get "serverType" =
      normalizeServerType (conn.get "serverType") := by
  have hkept : "serverType" ∉ clientOnlyKeys := by decide
  rw [get_sanitize conn (by decide), sanitizedProperty]
  exact (if_neg (mt mem_clientOnlyKeys_of_stripped hkept)).trans (if_pos rfl)

theorem get_sanitize_protocolVersion :
    (sanitizeConnectionConfig conn).get "protocolVersion" =
      coercedVersion (conn.get "protocolVersion") := by
  have hkept : "protocolVersion" ∉ clientOnlyKeys := by decide
  rw [get_sanitize conn (by decide), sanitizedProperty]
  exact (if_neg (mt mem_clientOnlyKeys_of_stripped hkept)).trans
    ((if_neg (by decide)).trans (if_pos rfl))

theorem get_sanitize_connectionId :
    (sanitizeConnectionConfig conn).get "connectionId" = trimmedText (conn.get "connectionId") := by
  have hkept : "connectionId" ∉ clientOnlyKeys := by decide
  rw [get_sanitize conn (by decide), sanitizedProperty]
  exact (if_neg (mt mem_clientOnlyKeys_of_stripped hkept)).trans
    ((if_neg (by decide)).trans ((if_neg (by decide)).trans (if_pos rfl)))

/-- The keys that sanitising may rewrite. -/
def rewrittenKeys : List String := ["serverType", "protocolVersion", "connectionId"]

variable {key : String}

/-- Any other property is kept or stripped. -/
theorem get_sanitize_other (hkey : key ∈ VALID_CONNECTION_KEYS) (hother : key ∉ rewrittenKeys) :
    (sanitizeConnectionConfig conn).get key =
      if key ∈ strippedKeys (normalizeServerType (conn.get "serverType"))
          (coercedVersion (conn.get "protocolVersion")) then .undefined
      else conn.get key := by
  obtain ⟨htype, hversion, hid⟩ : key ≠ "serverType" ∧ key ≠ "protocolVersion" ∧
      key ≠ "connectionId" := by simpa [rewrittenKeys] using hother
  rw [get_sanitize conn hkey, sanitizedProperty, if_neg htype, if_neg hversion, if_neg hid]

/-- What a server uses is kept. -/
theorem get_sanitize_kept (hkey : key ∈ VALID_CONNECTION_KEYS) (hother : key ∉ rewrittenKeys)
    (hkept : key ∉ clientOnlyKeys) : (sanitizeConnectionConfig conn).get key = conn.get key := by
  rw [get_sanitize_other conn hkey hother, if_neg (mt mem_clientOnlyKeys_of_stripped hkept)]

theorem get_sanitize_eq_or (hkey : key ∈ VALID_CONNECTION_KEYS) (hother : key ∉ rewrittenKeys) :
    (sanitizeConnectionConfig conn).get key = conn.get key ∨
      (sanitizeConnectionConfig conn).get key = .undefined := by
  rw [get_sanitize_other conn hkey hother]
  split_ifs
  · exact Or.inr rfl
  · exact Or.inl rfl

end Sanitised

/-- **Sanitising is idempotent.** -/
theorem sanitize_sanitize (conn : JsValue) :
    sanitizeConnectionConfig (sanitizeConnectionConfig conn) = sanitizeConnectionConfig conn := by
  rw [sanitize_eq (sanitizeConnectionConfig conn), sanitize_eq conn]
  refine congrArg _ (tabulate_congr fun key hkey => ?_)
  rw [← sanitize_eq conn, sanitizedProperty, get_sanitize_serverType,
    get_sanitize_protocolVersion, get_sanitize_connectionId, get_sanitize conn hkey,
    normalizeServerType_normalizeServerType, coercedVersion_coercedVersion,
    trimmedText_trimmedText, sanitizedProperty]
  -- the same keys are stripped, and each rewritten property is there already
  split_ifs <;> rfl

/-! ### Validity -/

theorem firstError_eq_none {errors : List (Option String)} :
    firstError errors = none ↔ ∀ error ∈ errors, error = none :=
  List.findSome?_eq_none_iff

theorem firstError_cons (error : Option String) (errors : List (Option String)) :
    firstError (error :: errors) = (error <|> firstError errors) := by
  cases error <;> rfl

theorem firstError_append (errors errors' : List (Option String)) :
    firstError (errors ++ errors') = (firstError errors <|> firstError errors') := by
  induction errors with
  | nil => rfl
  | cons error errors ih =>
    rw [List.cons_append, firstError_cons, firstError_cons, ih]
    cases error <;> rfl

theorem errorIf_eq_none {condition : Prop} [Decidable condition] {message : String} :
    errorIf condition message = none ↔ ¬ condition := by
  unfold errorIf
  split_ifs with h <;> simp [h]

theorem isLegacyVersion_coercedVersion (protocolVersion : JsValue) :
    isLegacyVersion (coercedVersion protocolVersion) = isLegacyVersion protocolVersion := by
  by_cases hbasic : protocolVersion = .str "basic"
  · rw [hbasic]
    decide +kernel
  by_cases hadvanced : protocolVersion = .str "advanced"
  · rw [hadvanced]
    decide +kernel
  by_cases htwo : protocolVersion = .num (.finite 2)
  · rw [htwo]
    decide +kernel
  · rw [coercedVersion_eq_self hbasic hadvanced htwo]

section Valid

variable {platform : ConfigPlatform} {conn : JsValue} {p key label : String}

/-- A check that a property left out passes is passed after sanitising. -/
theorem optional_sanitize {error : JsValue → Option String} (hkey : key ∈ VALID_CONNECTION_KEYS)
    (hother : key ∉ rewrittenKeys) (h : optional (conn.get key) error = none) :
    optional ((sanitizeConnectionConfig conn).get key) error = none := by
  obtain hsame | hstripped := get_sanitize_eq_or conn hkey hother
  · rw [hsame, h]
  · rw [hstripped]
    rfl

theorem booleanError_sanitize (hkey : key ∈ VALID_CONNECTION_KEYS) (hother : key ∉ rewrittenKeys)
    (h : booleanError conn key label = none) :
    booleanError (sanitizeConnectionConfig conn) key label = none := by
  rw [booleanError]
  obtain hsame | hstripped := get_sanitize_eq_or conn hkey hother
  · rw [hsame]
    exact h
  · rw [hstripped]

theorem numberRangeError_sanitize {min max : ℕ} (hkey : key ∈ VALID_CONNECTION_KEYS)
    (hother : key ∉ rewrittenKeys) (h : numberRangeError conn key min max label = none) :
    numberRangeError (sanitizeConnectionConfig conn) key min max label = none := by
  rw [numberRangeError]
  obtain hsame | hstripped := get_sanitize_eq_or conn hkey hother
  · rw [hsame]
    exact h
  · rw [hstripped]

/-- A property that is left out stays out. -/
theorem undefined_sanitize (hkey : key ∈ VALID_CONNECTION_KEYS) (hother : key ∉ rewrittenKeys)
    (h : conn.get key = .undefined) : (sanitizeConnectionConfig conn).get key = .undefined := by
  obtain hsame | hstripped := get_sanitize_eq_or conn hkey hother
  · rw [hsame, h]
  · exact hstripped

/-- A condition on a property that has to be there. -/
theorem true_of_sanitize (hkey : key ∈ VALID_CONNECTION_KEYS) (hother : key ∉ rewrittenKeys)
    (h : (sanitizeConnectionConfig conn).get key = .bool true) : conn.get key = .bool true := by
  obtain hsame | hstripped := get_sanitize_eq_or conn hkey hother
  · rw [← hsame, h]
  · rw [hstripped] at h
    nomatch h

theorem isLegacyVersion_sanitize :
    isLegacyVersion ((sanitizeConnectionConfig conn).get "protocolVersion") =
      isLegacyVersion (conn.get "protocolVersion") := by
  rw [get_sanitize_protocolVersion, isLegacyVersion_coercedVersion]

theorem protocolVersionError_sanitize
    (h : protocolVersionError p (conn.get "protocolVersion") = none) :
    protocolVersionError p ((sanitizeConnectionConfig conn).get "protocolVersion") = none := by
  rw [get_sanitize_protocolVersion]
  rw [protocolVersionError, errorIf_eq_none, not_not] at h ⊢
  have haccepted : ∀ v ∈ [JsValue.undefined, .num (.finite 1), .num (.finite 2), .num (.finite 3),
      .str "basic", .str "advanced"], coercedVersion v ∈ [JsValue.undefined, .num (.finite 1),
      .num (.finite 2), .num (.finite 3), .str "basic", .str "advanced"] := by decide +kernel
  exact haccepted _ h

theorem connectionIdError_sanitize
    (h : optional (conn.get "connectionId") (connectionIdError p) = none) :
    optional ((sanitizeConnectionConfig conn).get "connectionId") (connectionIdError p) = none := by
  rw [get_sanitize_connectionId]
  cases hid : conn.get "connectionId" with
  | str connectionId =>
    rw [hid] at h
    simpa [trimmedText, optional, connectionIdError] using h
  | _ =>
    rw [hid] at h
    exact h

theorem epochBoundAuthError_sanitize (h : epochBoundAuthError p conn = none) :
    epochBoundAuthError p (sanitizeConnectionConfig conn) = none := by
  rw [epochBoundAuthError, get_sanitize_kept conn (by decide) (by decide) (by decide),
    get_sanitize_kept conn (by decide) (by decide) (by decide), isLegacyVersion_sanitize]
  exact h

theorem useCompactDeltasError_sanitize (h : useCompactDeltasError p conn = none) :
    useCompactDeltasError p (sanitizeConnectionConfig conn) = none := by
  rw [useCompactDeltasError] at h ⊢
  split_ifs with hcompact
  · rw [if_pos (true_of_sanitize (by decide) (by decide) hcompact)] at h
    rw [isLegacyVersion_sanitize, get_sanitize_kept conn (by decide) (by decide) (by decide)]
    exact h
  · rfl

/-- A list of properties that have to be left out. -/
theorem leftOut_sanitize {keys : List String} {message : String → String}
    (hkeys : ∀ key ∈ keys, key ∈ VALID_CONNECTION_KEYS ∧ key ∉ rewrittenKeys)
    (h : ∀ error ∈ keys.map fun key => errorIf (conn.get key ≠ .undefined) (message key),
      error = none) :
    ∀ error ∈ keys.map fun key =>
      errorIf ((sanitizeConnectionConfig conn).get key ≠ .undefined) (message key),
      error = none := by
  simp only [List.forall_mem_map, errorIf_eq_none, not_not] at h ⊢
  exact fun key hkey => undefined_sanitize (hkeys key hkey).1 (hkeys key hkey).2 (h key hkey)

theorem isReliableVersion_of_legacy {protocolVersion : JsValue}
    (h : isLegacyVersion protocolVersion = true) : isReliableVersion protocolVersion = false := by
  cases protocolVersion with
  | num n =>
    cases n with
    | finite q =>
      have hq : q < 2 := by simpa [isLegacyVersion, resolvedVersion, JsNumber.lt] using h
      simp [isReliableVersion, JsNumber.lt, not_lt.2 hq.le, hq.ne]
    | _ => simp_all [isLegacyVersion, resolvedVersion, isReliableVersion, JsNumber.lt]
  | _ => rfl

/-- On a client, a legacy version keeps what the ping monitor uses, and a reliable one does not
have it. -/
theorem clientErrors_sanitize (hclient : normalizeServerType (conn.get "serverType") = .str "client")
    (h : ∀ error ∈ clientErrors p conn, error = none) :
    ∀ error ∈ clientErrors p (sanitizeConnectionConfig conn), error = none := by
  have hserver : normalizeServerType (conn.get "serverType") ≠ .str "server" := by simp [hclient]
  have hother : ∀ key ∈ "udpAddress" :: pingMonitorKeys,
      key ∈ VALID_CONNECTION_KEYS ∧ key ∉ rewrittenKeys := by decide
  rw [clientErrors, isLegacyVersion_sanitize]
  rw [clientErrors] at h
  by_cases hlegacy : isLegacyVersion (conn.get "protocolVersion") = true
  · have hreliable : isReliableVersion (coercedVersion (conn.get "protocolVersion")) = false :=
      isReliableVersion_of_legacy ((isLegacyVersion_coercedVersion _).trans hlegacy)
    have hkept : ∀ key ∈ "udpAddress" :: pingMonitorKeys,
        (sanitizeConnectionConfig conn).get key = conn.get key := by
      intro key hkey
      rw [get_sanitize_other conn (hother key hkey).1 (hother key hkey).2, strippedKeys,
        if_neg hserver, hreliable]
      simp
    rw [if_pos hlegacy] at h ⊢
    rw [hkept _ (by decide), hkept _ (by decide), hkept _ (by decide), hkept _ (by decide)]
    exact h
  · rw [if_neg hlegacy, List.forall_mem_cons] at h ⊢
    refine ⟨?_, leftOut_sanitize (fun key hkey => hother key (List.mem_cons_of_mem _ hkey)) h.2⟩
    have haddress : "udpAddress" ∉ pingMonitorKeys := by decide
    rw [get_sanitize_other conn (by decide) (by decide), if_neg ?_]
    · exact h.1
    · rw [strippedKeys, if_neg hserver]
      split_ifs
      · exact haddress
      · exact List.not_mem_nil

end Valid

/-- **Sanitising keeps a valid configuration valid.** -/
theorem validate_sanitize {platform : ConfigPlatform} {fields : List (String × JsValue)} {p : String}
    (h : validateConnectionConfig platform (.obj fields) p = none) :
    validateConnectionConfig platform (sanitizeConnectionConfig (.obj fields)) p = none := by
  generalize hconn : JsValue.obj fields = conn at h ⊢
  have hobject : isObject (sanitizeConnectionConfig conn) = true := by
    rw [sanitize_eq]
    rfl
  rw [validateConnectionConfig, if_pos (by rw [← hconn]; rfl), firstError_eq_none] at h
  rw [validateConnectionConfig, if_pos hobject, firstError_eq_none]
  simp only [connectionErrors, get_sanitize_serverType, normalizeServerType_normalizeServerType,
    List.forall_mem_append, List.forall_mem_cons, List.not_mem_nil, false_imp_iff, imp_true_iff,
    and_true] at h ⊢
  obtain ⟨⟨⟨⟨htype, hepoch⟩, hserver⟩, hport, hsecret, hversion, hmsgpack, hdedup, hcompact,
    hbound, hdedupVersion, hcompactVersion, hfilter, hbrotli, hprecision, hthrottle, hdictionary,
    hstretch, hheaders, hnotifications, hown, hname, hid, hhello, hheartbeat⟩, hclient⟩ := h.1
  obtain ⟨halerts, hreliability, hbonding, hcongestion⟩ := h.2
  refine ⟨⟨⟨⟨⟨htype, booleanError_sanitize (by decide) (by decide) hepoch⟩, ?server⟩, ?udpPort,
    ?secretKey, protocolVersionError_sanitize hversion,
    booleanError_sanitize (by decide) (by decide) hmsgpack,
    booleanError_sanitize (by decide) (by decide) hdedup,
    booleanError_sanitize (by decide) (by decide) hcompact,
    epochBoundAuthError_sanitize hbound, ?useValueDedup, useCompactDeltasError_sanitize hcompactVersion,
    optional_sanitize (by decide) (by decide) hfilter,
    optional_sanitize (by decide) (by decide) hbrotli,
    optional_sanitize (by decide) (by decide) hprecision,
    optional_sanitize (by decide) (by decide) hthrottle,
    booleanError_sanitize (by decide) (by decide) hdictionary,
    booleanError_sanitize (by decide) (by decide) hstretch,
    booleanError_sanitize (by decide) (by decide) hheaders,
    booleanError_sanitize (by decide) (by decide) hnotifications,
    booleanError_sanitize (by decide) (by decide) hown,
    optional_sanitize (by decide) (by decide) hname, connectionIdError_sanitize hid,
    optional_sanitize (by decide) (by decide) hhello,
    numberRangeError_sanitize (by decide) (by decide) hheartbeat⟩, ?client⟩,
    optional_sanitize (by decide) (by decide) halerts,
    optional_sanitize (by decide) (by decide) hreliability,
    optional_sanitize (by decide) (by decide) hbonding, ?congestionControl⟩
  case server =>
    split_ifs at hserver ⊢
    · exact leftOut_sanitize (by decide) hserver
    · exact hserver
  case udpPort =>
    rw [get_sanitize_kept conn (by decide) (by decide) (by decide)]
    exact hport
  case secretKey =>
    rw [get_sanitize_kept conn (by decide) (by decide) (by decide)]
    exact hsecret
  case useValueDedup =>
    rw [errorIf_eq_none] at hdedupVersion
    rw [errorIf_eq_none, isLegacyVersion_sanitize]
    exact fun h => hdedupVersion ⟨true_of_sanitize (by decide) (by decide) h.1, h.2⟩
  case client =>
    split_ifs at hclient ⊢ with hmode
    · exact clientErrors_sanitize hmode hclient
    · exact hclient
  case congestionControl =>
    have hkey : "congestionControl" ∈ VALID_CONNECTION_KEYS := by decide
    obtain hsame | hstripped := get_sanitize_eq_or conn hkey (by decide)
    · rw [hsame, hcongestion]
    · rw [hstripped]
      rfl

section OfValid

variable {platform : ConfigPlatform} {conn : JsValue} {p : String}

theorem error_eq_none_of_valid (h : validateConnectionConfig platform conn p = none)
    {error : Option String} (herror : error ∈ connectionErrors platform p conn) : error = none := by
  rw [validateConnectionConfig] at h
  split_ifs at h
  exact firstError_eq_none.1 h error herror

/-- A valid configuration is that of a server or of a client. -/
theorem serverType_of_valid (h : validateConnectionConfig platform conn p = none) :
    normalizeServerType (conn.get "serverType") = .str "server" ∨
      normalizeServerType (conn.get "serverType") = .str "client" := by
  have herror : errorIf (normalizeServerType (conn.get "serverType") ≠ .str "server" ∧
      normalizeServerType (conn.get "serverType") ≠ .str "client")
      (p ++ "serverType must be 'server' or 'client'") = none :=
    error_eq_none_of_valid h (by simp [connectionErrors])
  rw [errorIf_eq_none] at herror
  tauto

/-- The port of a valid configuration is a number. -/
theorem udpPort_of_valid (h : validateConnectionConfig platform conn p = none) :
    ∃ q : ℚ, conn.get "udpPort" = .num (.finite q) := by
  have herror : errorIf (isValidPort (conn.get "udpPort") 1024 = false)
      (p ++ "udpPort must be an integer between 1024 and 65535") = none :=
    error_eq_none_of_valid h (by simp [connectionErrors])
  rw [errorIf_eq_none, Bool.not_eq_false] at herror
  generalize conn.get "udpPort" = v at herror ⊢
  rw [isValidPort, integerIn.eq_def] at herror
  split at herror
  next q => exact ⟨q, rfl⟩
  next => cases herror

/-- Two bounds that have passed the checks of their ranges are compared as numbers. -/
theorem agesError_eq (platform : ConfigPlatform) {reliability : JsValue} {message : String}
    (hrange : ∀ check ∈ reliabilityChecks, reliability.get check.1 = .undefined ∨
      ∃ q : ℚ, reliability.get check.1 = .num (.finite q) ∧ check.2.1 ≤ q ∧ q ≤ check.2.2) :
    (optional (reliability.get "retransmitMinAge") fun min =>
      optional (reliability.get "retransmitMaxAge") fun max =>
        errorIf (jsGreater platform min max) message) =
      if minAboveMax reliability then some message else none := by
  have hmin := hrange ("retransmitMinAge", 200, 30000) (by simp [reliabilityChecks])
  have hmax := hrange ("retransmitMaxAge", 1000, 300000) (by simp [reliabilityChecks])
  rcases hmin with hmin | ⟨min, hmin, -⟩ <;> rcases hmax with hmax | ⟨max, hmax, -⟩ <;>
    simp [optional, errorIf, minAboveMax, jsGreater, JsNumber.lt, hmin, hmax]

/-- A client's reliability options are checked as `EdgeLink.Client.RetransmitAge` has it. -/
theorem reliabilityError_client (platform : ConfigPlatform) (p : String) (reliability : JsValue) :
    optional reliability (reliabilityError platform p false) =
      validateReliability p reliability := by
  cases reliability with
  | obj fields =>
    have hranges : firstError (reliabilityChecks.map fun check => numberRangeError (.obj fields)
        check.1 check.2.1 check.2.2 (p ++ "reliability." ++ check.1)) =
        reliabilityChecks.findSome? fun check => numberRangeError (.obj fields) check.1
          check.2.1 check.2.2 (p ++ "reliability." ++ check.1) := List.findSome?_map
    rw [optional, if_neg (by simp), reliabilityError, if_pos (by rfl), if_neg (by simp),
      firstError_append, hranges, validateReliability]
    simp only [firstError_cons]
    cases hrange : reliabilityChecks.findSome? fun check => numberRangeError (.obj fields) check.1
        check.2.1 check.2.2 (p ++ "reliability." ++ check.1) with
    | some error => rfl
    | none =>
      rw [agesError_eq platform fun check hcheck => numberRangeError_eq_none.1
        (List.findSome?_eq_none_iff.1 hrange check hcheck)]
      simp [firstError]
  | _ => rfl

/-- The options of a valid client have been accepted. -/
theorem accepted_of_valid (h : validateConnectionConfig platform conn p = none)
    (hclient : normalizeServerType (conn.get "serverType") = .str "client") :
    validateReliability p (conn.get "reliability") = none ∧
      validateCongestionControl p (conn.get "congestionControl") = none := by
  refine ⟨?_, error_eq_none_of_valid h (by simp [connectionErrors])⟩
  rw [← reliabilityError_client platform]
  exact error_eq_none_of_valid h (by simp [connectionErrors, hclient])

end OfValid

/-- Sanitising keeps a valid configuration valid, and sanitising twice is sanitising once. -/
theorem sanitize_spec :
    (∀ (platform : ConfigPlatform) (fields : List (String × JsValue)) (p : String),
      validateConnectionConfig platform (.obj fields) p = none →
        validateConnectionConfig platform (sanitizeConnectionConfig (.obj fields)) p = none) ∧
    ∀ connection : JsValue, sanitizeConnectionConfig (sanitizeConnectionConfig connection) =
      sanitizeConnectionConfig connection :=
  ⟨fun _ _ _ h => validate_sanitize h, sanitize_sanitize⟩

/-- A client written for an older release: a legacy mode, the version that is coerced, an
identifier with white space around it and a key that is not recognised. -/
def legacyClient : List (String × JsValue) :=
  [("serverType", .bool false),
    ("name", .str "shore"),
    ("connectionId", .str " shore-1 "),
    ("udpPort", .num (.finite 4446)),
    ("udpAddress", .str "203.0.113.7"),
    ("secretKey", .str "kP3xV9mQ7zR2tW8nB5cD1fG6hJ4sL0aY"),
    ("protocolVersion", .num (.finite 2)),
    ("useMsgpack", .bool true),
    ("useCompactDeltas", .bool true),
    ("brotliQuality", .num (.finite 4)),
    ("sensors", .arr [])]

/-- The key of that client is accepted. -/
def legacyPlatform : ConfigPlatform where
  secretKeyError key :=
    if key = .str "kP3xV9mQ7zR2tW8nB5cD1fG6hJ4sL0aY" then none
    else some "Secret key must be 32 bytes"
  greaterThan _ _ := false

theorem sanitize_spec_legacyClient :
    validateConnectionConfig legacyPlatform (sanitizeConnectionConfig (.obj legacyClient)) "" = none ∧
      (sanitizeConnectionConfig (.obj legacyClient)).get "protocolVersion" = .num (.finite 3) ∧
      (sanitizeConnectionConfig (.obj legacyClient)).get "connectionId" = .str "shore-1" ∧
      (sanitizeConnectionConfig (.obj legacyClient)).get "sensors" = .undefined :=
  ⟨sanitize_spec.1 legacyPlatform legacyClient "" (by decide +kernel), by decide +kernel,
    by decide +kernel, by decide +kernel⟩

end ConnectionConfig

end EdgeLink
