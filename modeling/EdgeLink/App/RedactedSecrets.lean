import EdgeLink.App.ConnectionConfig
import EdgeLink.App.ConnectionManager
import EdgeLink.Foundations.KeyIndex

/-!
# Redacted secrets

`GET /plugin-config` and `POST /plugin-config` of `routes/config.ts`. The answer to a GET carries a
marker in the place of every secret; a POST that carries the marker gets the secret back from the
persisted connection with the same identity: its `connectionId` or, when it has none, the text of
its name, mode and port. What is saved is validated and sanitised (`connection-config.ts`).

* `Linked` says which persisted connection a posted one is matched with.
* `restoreEntry_linked`: a restored secret is that of a linked connection.
* `restored_secrets`: what a POST saves, and that a POST of the unmodified answer saves every secret
  as it was.
* `restored_from_other`: the text of an identity may be that of another one, where a persisted mode
  has colons in it; and a persisted connection with a `connectionId` is no candidate for an entry
  without one.
-/

namespace EdgeLink

open ConnectionConfig

/-- What the routes take from elsewhere. The text of a number has no colon in it. -/
structure ConfigHost extends ConfigPlatform where
  /-- `String(n)` of a finite number -/
  numberToString : ℚ → String
  noColon : ∀ q, ':' ∉ (numberToString q).toList
  /-- `Number(v)` of a value that is no number -/
  toNumber : JsValue → JsNumber

/-- How a configuration is saved. -/
inductive SaveHandler
  | restartPlugin
  | savePluginOptions
  /-- the handler throws -/
  | failing (message : String)
  /-- there is neither -/
  | missing

def REDACTED_SECRET : String := "[redacted]"

def SENSITIVE_FIELDS : List String := ["secretKey", "managementApiToken"]

/-! ## Redaction -/

mutual

/-- Put the marker in the place of every secret. -/
def redactSecretKeys : JsValue → JsValue
  | .arr items => .arr (redactItems items)
  | .obj fields => .obj (redactFields fields)
  | v => v

def redactItems : List JsValue → List JsValue
  | [] => []
  | v :: rest => redactSecretKeys v :: redactItems rest

def redactFields : List (String × JsValue) → List (String × JsValue)
  | [] => []
  | (key, v) :: rest =>
    (key, if key ∈ SENSITIVE_FIELDS then .str REDACTED_SECRET else redactSecretKeys v) ::
      redactFields rest

end

/-- `configuration || {}` -/
def getPersistedConfiguration (configuration : JsValue) : JsValue :=
  if truthy configuration then configuration else .obj []

/-- The configuration in the answer of `GET /plugin-config`. -/
def getPluginConfig (configuration : JsValue) : JsValue :=
  redactSecretKeys (getPersistedConfiguration configuration)

/-! ## Identities -/

/-- `{ ...v }`: the places of an array or a string are properties that no connection has. -/
def spreadConnection : JsValue → JsValue
  | .obj fields => .obj fields
  | _ => .obj []

/-- The connections of a configuration, or the configuration itself when it is a flat one. -/
def getPersistedConnections (config : JsValue) : List JsValue :=
  match config.get "connections" with
  | .arr items => items.map spreadConnection
  | _ => if truthy (config.get "serverType") then [spreadConnection config] else []

def normalizeConnectionId : JsValue → Option String
  | .str s => if trim s = "" then none else some (trim s)
  | _ => none

section Identity

variable (host : ConfigHost)

/-- `String(v)` -/
def ConfigHost.text (v : JsValue) : String := v.toText host.numberToString

/-- `String(v || alternative)` -/
def ConfigHost.textOr (v : JsValue) (alternative : String) : String :=
  if truthy v then host.text v else alternative

def getLegacyConnectionIdentityKey (connection : JsValue) : Option String :=
  let name := connection.get "name"
  let serverType := connection.get "serverType"
  let udpPort := connection.get "udpPort"
  if truthy name = false ∨ truthy serverType = false ∨ udpPort = .undefined ∨ udpPort = .null then
    none
  else some ("legacy:" ++ host.text name ++ "::" ++ host.text serverType ++ "::" ++ host.text udpPort)

def getConnectionIdentityKey (connection : JsValue) : Option String :=
  match normalizeConnectionId (connection.get "connectionId") with
  | some connectionId => some ("id:" ++ connectionId)
  | none => getLegacyConnectionIdentityKey host connection

/-- The key begins with `id:`. -/
def startsWithId (key : String) : Bool := "id:".toList.isPrefixOf key.toList

/-! ## Restoring -/

/-- The persisted connection at the place of the posted one, for one that has been given a
`connectionId` while everything else about its identity is the same. -/
def persistedAtIndex (persistedConnections : List JsValue) (count index : ℕ) (connection : JsValue) :
    Option JsValue :=
  if (normalizeConnectionId (connection.get "connectionId")).isSome ∧
      (getLegacyConnectionIdentityKey host connection).isSome ∧
      persistedConnections.length = count then persistedConnections[index]?
  else none

def indexFallbackIsSafe (duplicateIdentityKeys : List String) (connection persisted : JsValue) :
    Bool :=
  let legacyIdentityKey := getLegacyConnectionIdentityKey host connection
  getLegacyConnectionIdentityKey host persisted = legacyIdentityKey ∧
    isText (persisted.get "secretKey") ∧
    legacyIdentityKey.getD "" ∉ duplicateIdentityKeys ∧
    (getConnectionIdentityKey host persisted).all (fun key => !startsWithId key)

/-- One entry of a posted list, with its secret restored. -/
def restoreEntry (persistedConnections : List JsValue) (count index : ℕ) (connection : JsValue) :
    Except String JsValue :=
  if connection.get "secretKey" ≠ .str REDACTED_SECRET then .ok connection
  else
    let identities := keyIndex (getConnectionIdentityKey host) persistedConnections
    let identityKey := getConnectionIdentityKey host connection
    let persisted := identityKey.bind identities.first.get?
    let fallback := (persistedAtIndex host persistedConnections count index connection).filter
      (indexFallbackIsSafe host identities.duplicates connection)
    let place := "connections[" ++ toString index ++ "]"
    if identityKey = none ∧ fallback = none then
      .error (place ++ ".secretKey is redacted, but connection identity is incomplete " ++
        "(requires connectionId or name/serverType/udpPort)")
    else if identityKey.any (fun key => key ∈ identities.duplicates) then
      .error (place ++ " (" ++ host.textOr (connection.get "name") "unnamed" ++
        ") is ambiguous: multiple stored connections match its identity")
    else
      match (persisted <|> fallback).filter (fun p => isText (p.get "secretKey")) with
      | some matched =>
        .ok (.obj (setField (entriesOf connection) "secretKey" (matched.get "secretKey")))
      | none =>
        .error (place ++ " (" ++ host.textOr (connection.get "name") "unnamed" ++ " " ++
          host.textOr (connection.get "serverType") "unknown" ++ " " ++
          host.textOr (connection.get "udpPort") "unknown" ++
          ") has redacted secretKey, but no stored secretKey exists for this connection identity")

def restoreRedactedSecretKeys (connectionList : List JsValue) (persistedConfig : JsValue) :
    Except String (List JsValue) :=
  let persistedConnections := getPersistedConnections persistedConfig
  connectionList.zipIdx.mapM fun e =>
    restoreEntry host persistedConnections connectionList.length e.2 e.1

/-! ## Saving -/

/-- The connections of a request body. -/
def connectionListOf (body : JsValue) : Except String (List JsValue) :=
  match body with
  | .obj _ =>
    match body.get "connections" with
    | .arr [] => .error "connections array must contain at least one entry"
    | .arr items => .ok (items.map spreadConnection)
    | _ =>
      if truthy (body.get "serverType") then .ok [spreadConnection body]
      else .error
        "Request body must have a 'connections' array or a top-level 'serverType' field"
  | _ => .error "Request body must be a JSON object"

/-- The first error of a list of connections. -/
def firstValidationError (connectionList : List JsValue) : Option String :=
  connectionList.zipIdx.findSome? fun e =>
    validateConnectionConfig host.toConfigPlatform e.1
      (if 1 < connectionList.length then "connections[" ++ toString e.2 ++ "]." else "")

/-- `Number(v)`, when it is an integer. -/
def ConfigHost.integer? (v : JsValue) : Option ℚ :=
  match (match v with | .num n => n | v => host.toNumber v) with
  | .finite q => if q.den = 1 then some q else none
  | _ => none

def validateUniqueServerPorts (connections : List JsValue) : Option String :=
  let serverPorts := (connections.filter fun connection =>
      normalizeServerType (connection.get "serverType") = .str "server").filterMap
    fun connection => host.integer? (connection.get "udpPort")
  let duplicates := (serverPorts.zipIdx.filter fun e => serverPorts.idxOf e.1 ≠ e.2).map Prod.fst
  if duplicates = [] then none
  else some ("Duplicate server ports are not allowed: " ++
    ", ".intercalate (duplicates.eraseDups.map host.numberToString))

/-- The management token of a configuration. -/
def managementTokenOf (config : JsValue) : Option String :=
  match config.get "managementApiToken" with
  | .str token => some token
  | _ => none

/-- The management token that is saved: an omitted one and the marker stand for the persisted one. -/
def resolveManagementToken (persistedConfig body : JsValue) : Option String :=
  let persistedToken := managementTokenOf persistedConfig
  match body.get "managementApiToken" with
  | .str token =>
    if token = REDACTED_SECRET then persistedToken else if token = "" then none else some token
  | _ => persistedToken

/-- The flag that is saved: an omitted one stands for the persisted one. -/
def resolveRequireToken (persistedConfig body : JsValue) : Option Bool :=
  match body.get "requireManagementApiToken", persistedConfig.get "requireManagementApiToken" with
  | .bool b, _ => some b
  | _, .bool b => some b
  | _, _ => none

/-- The configuration that a POST saves, or the error of a rejected one. -/
def finalConfig (persistedConfig body : JsValue) : Except String JsValue := do
  let connectionList ← connectionListOf body
  let restored ← restoreRedactedSecretKeys host connectionList persistedConfig
  let connectionList := restored.map sanitizeConnectionConfig
  match firstValidationError host connectionList <|> validateUniqueServerPorts host connectionList with
  | some error => .error error
  | none =>
    .ok (.obj ([("connections", .arr connectionList)] ++
      ((resolveManagementToken persistedConfig body).map
        fun token => ("managementApiToken", .str token)).toList ++
      ((resolveRequireToken persistedConfig body).map
        fun b => ("requireManagementApiToken", .bool b)).toList))

/-- The answer to a POST, and the configuration that was saved. -/
structure PostOutcome where
  status : ℕ
  error : Option String
  saved : Option JsValue

/-- `POST /plugin-config` -/
def postPluginConfig (handler : SaveHandler) (configuration body : JsValue) : PostOutcome :=
  match finalConfig host (getPersistedConfiguration configuration) body with
  | .error error => ⟨400, some error, none⟩
  | .ok config =>
    match handler with
    | .restartPlugin | .savePluginOptions => ⟨200, none, some config⟩
    | .failing message => ⟨500, some message, none⟩
    | .missing =>
      ⟨503, some "No restart or save handler available to persist configuration", none⟩

/-! ## Matching -/

/-- Neither the mode nor the port of a connection has a colon in its text. -/
def PlainSides (connection : JsValue) : Prop :=
  ':' ∉ (host.text (connection.get "serverType")).toList ∧
    ':' ∉ (host.text (connection.get "udpPort")).toList

/-- Two connections have the same name, mode and port, as texts. -/
def SameName (c p : JsValue) : Prop :=
  ∀ key ∈ ["name", "serverType", "udpPort"], host.text (c.get key) = host.text (p.get key)

/-- **The persisted connection `p`, at the place `j`, that a posted one is matched with**: the only
one with its `connectionId` or, when no `connectionId` links it, the only one without a
`connectionId` that has the same identity text, which is the same name, mode and port unless there
are colons where no valid connection has any. -/
inductive Linked (persisted : List JsValue) (c : JsValue) (j : ℕ) (p : JsValue) : Prop
  | byId {connectionId : String}
      (hc : normalizeConnectionId (c.get "connectionId") = some connectionId)
      (hp : normalizeConnectionId (p.get "connectionId") = some connectionId)
      (unique : ∀ (i : ℕ) (q : JsValue), persisted[i]? = some q →
        normalizeConnectionId (q.get "connectionId") = some connectionId → i = j)
  | byName {key : String}
      (unlinked : ∀ q ∈ persisted, normalizeConnectionId (c.get "connectionId") = none ∨
        normalizeConnectionId (q.get "connectionId") ≠ normalizeConnectionId (c.get "connectionId"))
      (hp : normalizeConnectionId (p.get "connectionId") = none)
      (hkey : getLegacyConnectionIdentityKey host c = some key)
      (hkey' : getLegacyConnectionIdentityKey host p = some key)
      (unique : ∀ (i : ℕ) (q : JsValue), persisted[i]? = some q →
        normalizeConnectionId (q.get "connectionId") = none →
          getLegacyConnectionIdentityKey host q = some key → i = j)
      (same : PlainSides host p → SameName host c p)

end Identity

section Matching

variable {host : ConfigHost} {c p q : JsValue} {key : String} {persisted : List JsValue} {i j : ℕ}

theorem getLegacyConnectionIdentityKey_eq_some (h : getLegacyConnectionIdentityKey host c = some key) :
    key = "legacy:" ++ host.text (c.get "name") ++ "::" ++ host.text (c.get "serverType") ++ "::" ++
      host.text (c.get "udpPort") := by
  rw [getLegacyConnectionIdentityKey] at h
  split_ifs at h
  exact (Option.some.inj h).symm

/-- The texts of an identity without colons in its mode and port can be read back. -/
theorem sameName_of_key (hc : PlainSides host c) (hp : PlainSides host p)
    (hkey : getLegacyConnectionIdentityKey host c = some key)
    (hkey' : getLegacyConnectionIdentityKey host p = some key) : SameName host c p := by
  have heq := (getLegacyConnectionIdentityKey_eq_some hkey).symm.trans
    (getLegacyConnectionIdentityKey_eq_some hkey')
  have hlist := congrArg String.toList heq
  simp only [String.toList_append] at hlist
  obtain ⟨hname, htype, hport⟩ := eq_of_joined hlist hc.1 hp.1 hc.2 hp.2
  simp only [SameName, List.forall_mem_cons, List.not_mem_nil, false_imp_iff, imp_true_iff, and_true]
  exact ⟨String.toList_inj.1 hname, String.toList_inj.1 htype, String.toList_inj.1 hport⟩

theorem startsWithId_append (connectionId : String) : startsWithId ("id:" ++ connectionId) = true := by
  rw [startsWithId, String.toList_append, List.isPrefixOf_iff_prefix]
  exact List.prefix_append _ _

theorem not_startsWithId_legacy (h : getLegacyConnectionIdentityKey host c = some key) :
    startsWithId key = false := by
  rw [getLegacyConnectionIdentityKey_eq_some h, startsWithId]
  simp [String.toList_append, List.isPrefixOf]

/-- The identity key of a connection with a `connectionId`, and of one without. -/
theorem getConnectionIdentityKey_eq (c : JsValue) :
    getConnectionIdentityKey host c =
      match normalizeConnectionId (c.get "connectionId") with
      | some connectionId => some ("id:" ++ connectionId)
      | none => getLegacyConnectionIdentityKey host c := rfl

theorem normalizeConnectionId_of_key {connectionId : String}
    (h : getConnectionIdentityKey host c = some ("id:" ++ connectionId)) :
    normalizeConnectionId (c.get "connectionId") = some connectionId := by
  rw [getConnectionIdentityKey_eq] at h
  cases hid : normalizeConnectionId (c.get "connectionId") with
  | some connectionId' =>
    rw [hid] at h
    have hlist := congrArg String.toList (Option.some.inj h)
    rw [String.toList_append, String.toList_append] at hlist
    exact congrArg some (String.toList_inj.1 (List.append_cancel_left hlist))
  | none =>
    rw [hid] at h
    have := not_startsWithId_legacy h
    rw [startsWithId_append] at this
    cases this

/-- A key that does not begin with `id:` is that of a connection without a `connectionId`. -/
theorem normalizeConnectionId_of_legacy (h : getConnectionIdentityKey host c = some key)
    (hkey : startsWithId key = false) :
    normalizeConnectionId (c.get "connectionId") = none ∧
      getLegacyConnectionIdentityKey host c = some key := by
  rw [getConnectionIdentityKey_eq] at h
  cases hid : normalizeConnectionId (c.get "connectionId") with
  | some connectionId =>
    rw [hid] at h
    rw [← Option.some.inj h, startsWithId_append] at hkey
    cases hkey
  | none =>
    rw [hid] at h
    exact ⟨rfl, h⟩

/-- A legacy identity that does not repeat. -/
theorem linked_byName (hplain : PlainSides host c)
    (unlinked : ∀ q ∈ persisted, normalizeConnectionId (c.get "connectionId") = none ∨
      normalizeConnectionId (q.get "connectionId") ≠ normalizeConnectionId (c.get "connectionId"))
    (hc : getLegacyConnectionIdentityKey host c = some key)
    (hdup : key ∉ (keyIndex (getConnectionIdentityKey host) persisted).duplicates)
    (hj : persisted[j]? = some p) (hp : getConnectionIdentityKey host p = some key) :
    Linked host persisted c j p := by
  obtain ⟨hpid, hpkey⟩ := normalizeConnectionId_of_legacy hp (not_startsWithId_legacy hc)
  refine .byName unlinked hpid hc hpkey (fun i q hq hqid hqkey => ?_)
    fun hplain' => sameName_of_key hplain hplain' hc hpkey
  have hqkey' : getConnectionIdentityKey host q = some key := by
    rw [getConnectionIdentityKey_eq, hqid]
    exact hqkey
  exact KeyIndex.unique hdup hq hqkey' hj hp

/-- An identity that does not repeat. -/
theorem linked_of_identity (hplain : PlainSides host c)
    (hc : getConnectionIdentityKey host c = some key)
    (hdup : key ∉ (keyIndex (getConnectionIdentityKey host) persisted).duplicates)
    (hj : persisted[j]? = some p) (hp : getConnectionIdentityKey host p = some key) :
    Linked host persisted c j p := by
  have heq : getConnectionIdentityKey host c = _ := getConnectionIdentityKey_eq c
  cases hid : normalizeConnectionId (c.get "connectionId") with
  | some connectionId =>
    rw [hid, hc] at heq
    obtain rfl := Option.some.inj heq
    refine .byId hid (normalizeConnectionId_of_key hp) fun i q hq hqid => ?_
    have hqkey : getConnectionIdentityKey host q = some ("id:" ++ connectionId) := by
      rw [getConnectionIdentityKey_eq, hqid]
    exact KeyIndex.unique hdup hq hqkey hj hp
  | none =>
    rw [hid, hc] at heq
    exact linked_byName hplain (fun q _ => Or.inl hid) heq.symm hdup hj hp

/-- The connection at the same place, for an entry with a `connectionId` that nothing has. -/
theorem linked_of_fallback {count : ℕ} (hplain : PlainSides host c)
    (hnone : (getConnectionIdentityKey host c).bind
      (keyIndex (getConnectionIdentityKey host) persisted).first.get? = none)
    (h : (persistedAtIndex host persisted count i c).filter (indexFallbackIsSafe host
      (keyIndex (getConnectionIdentityKey host) persisted).duplicates c) = some p) :
    persisted[i]? = some p ∧ Linked host persisted c i p := by
  obtain ⟨hindex, hsafe⟩ := Option.filter_eq_some_iff.1 h
  rw [persistedAtIndex] at hindex
  split_ifs at hindex with hcond
  obtain ⟨hid, hlegacy, -⟩ := hcond
  obtain ⟨connectionId, hid⟩ := Option.isSome_iff_exists.1 hid
  obtain ⟨key, hkey⟩ := Option.isSome_iff_exists.1 hlegacy
  simp only [indexFallbackIsSafe, hkey, Option.getD_some, Bool.decide_and, Bool.and_eq_true,
    decide_eq_true_eq] at hsafe
  obtain ⟨hpkey, -, hdup, hall⟩ := hsafe
  have hp : getConnectionIdentityKey host p = some key := by
    rw [getConnectionIdentityKey_eq] at hall ⊢
    cases hpid : normalizeConnectionId (p.get "connectionId") with
    | some connectionId' =>
      rw [hpid] at hall
      simp [startsWithId_append] at hall
    | none => exact hpkey
  refine ⟨hindex, linked_byName hplain (fun q hq => Or.inr fun hqid => ?_) hkey hdup hindex hp⟩
  rw [getConnectionIdentityKey_eq, hid, Option.bind_some] at hnone
  refine KeyIndex.none_of_first hnone hq ?_
  rw [getConnectionIdentityKey_eq, hqid, hid]

/-- **A restored secret is that of a linked connection**, which has one; and nothing else about an
entry changes. -/
theorem restoreEntry_linked {count : ℕ} {r : JsValue} (hplain : PlainSides host c)
    (h : restoreEntry host persisted count i c = .ok r)
    (hmarker : c.get "secretKey" = .str REDACTED_SECRET) :
    ∃ j p, persisted[j]? = some p ∧ Linked host persisted c j p ∧
      isText (p.get "secretKey") = true ∧
      r = .obj (setField (entriesOf c) "secretKey" (p.get "secretKey")) := by
  rw [restoreEntry, if_neg (not_not.2 hmarker)] at h
  dsimp only at h
  split_ifs at h with hincomplete hambiguous
  split at h
  next matched hmatched =>
    obtain ⟨hfound, htext⟩ := Option.filter_eq_some_iff.1 hmatched
    have hr : r = .obj (setField (entriesOf c) "secretKey" (matched.get "secretKey")) := by
      cases h
      rfl
    cases hindexed : (getConnectionIdentityKey host c).bind
        (keyIndex (getConnectionIdentityKey host) persisted).first.get? with
    | some p =>
      rw [hindexed] at hfound
      obtain rfl : p = matched := Option.some.inj hfound
      obtain ⟨key, hc, hfirst⟩ := Option.bind_eq_some_iff.1 hindexed
      obtain ⟨j, hj, hp⟩ := KeyIndex.mem_of_first hfirst
      have hdup : key ∉ (keyIndex (getConnectionIdentityKey host) persisted).duplicates := by
        simpa [hc] using hambiguous
      exact ⟨j, p, hj, linked_of_identity hplain hc hdup hj hp, htext, hr⟩
    | none =>
      rw [hindexed] at hfound
      obtain ⟨hj, hlinked⟩ := linked_of_fallback hplain hindexed hfound
      exact ⟨i, matched, hj, hlinked, htext, hr⟩
  next => cases h

end Matching

/-! ## What a POST saves -/

/-- The connections of a saved configuration. -/
def connectionsOf (config : JsValue) : List JsValue :=
  match config.get "connections" with
  | .arr items => items
  | _ => []

section Saving

variable {host : ConfigHost} {handler : SaveHandler} {configuration persistedConfig body saved : JsValue}
  {posted restored : List JsValue}

/-- A configuration that is saved has come through restoring, sanitising and validation. -/
theorem finalConfig_cases (h : finalConfig host persistedConfig body = .ok saved) :
    ∃ posted restored, connectionListOf body = .ok posted ∧
      restoreRedactedSecretKeys host posted persistedConfig = .ok restored ∧
      firstValidationError host (restored.map sanitizeConnectionConfig) = none ∧
      connectionsOf saved = restored.map sanitizeConnectionConfig ∧
      managementTokenOf saved = resolveManagementToken persistedConfig body := by
  rw [finalConfig] at h
  cases hposted : connectionListOf body with
  | error e => rw [hposted] at h; cases h
  | ok posted =>
    cases hrestored : restoreRedactedSecretKeys host posted persistedConfig with
    | error e =>
      simp only [hposted, hrestored, bind, Except.bind] at h
      cases h
    | ok restored =>
      simp only [hposted, hrestored, bind, Except.bind] at h
      split at h
      · cases h
      next hvalid =>
        obtain ⟨hvalid, -⟩ := (Option.orElse_eq_none _ _).1 hvalid
        refine ⟨posted, restored, rfl, hrestored, hvalid, ?_, ?_⟩ <;> cases h
        · rfl
        · cases resolveManagementToken persistedConfig body <;>
            cases resolveRequireToken persistedConfig body <;> rfl

/-- Only a configuration that passes every check is saved, and the answer says so. -/
theorem postPluginConfig_saved
    (h : (postPluginConfig host handler configuration body).saved = some saved) :
    finalConfig host (getPersistedConfiguration configuration) body = .ok saved := by
  rw [postPluginConfig] at h
  cases hfinal : finalConfig host (getPersistedConfiguration configuration) body with
  | error e => rw [hfinal] at h; cases h
  | ok config =>
    rw [hfinal] at h
    cases handler <;> first | exact congrArg Except.ok (Option.some.inj h) | cases h

theorem saved_iff_status (host : ConfigHost) (handler : SaveHandler) (configuration body : JsValue) :
    (postPluginConfig host handler configuration body).saved.isSome ↔
      (postPluginConfig host handler configuration body).status = 200 := by
  rw [postPluginConfig]
  cases finalConfig host (getPersistedConfiguration configuration) body with
  | error e => simp
  | ok config => cases handler <;> simp

theorem validate_of_firstValidationError {list : List JsValue}
    (h : firstValidationError host list = none) {i : ℕ} {c : JsValue} (hc : list[i]? = some c) :
    ∃ p, validateConnectionConfig host.toConfigPlatform c p = none :=
  ⟨_, List.findSome?_eq_none_iff.1 h (c, i) (List.mem_zipIdx_iff_getElem?.2 hc)⟩

theorem spreadConnection_eq (v : JsValue) : ∃ fields, spreadConnection v = .obj fields := by
  cases v <;> exact ⟨_, rfl⟩

/-- The posted connections are objects. -/
theorem isObject_of_posted (h : connectionListOf body = .ok posted) {c : JsValue} (hc : c ∈ posted) :
    ∃ fields, c = .obj fields := by
  have hspread : ∃ v, spreadConnection v = c := by
    cases body with
    | obj fields =>
      rw [connectionListOf] at h
      split at h
      · cases h
      next items _ _ =>
        cases h
        obtain ⟨v, -, hv⟩ := List.mem_map.1 hc
        exact ⟨v, hv⟩
      · split_ifs at h
        cases h
        exact ⟨_, (List.mem_singleton.1 hc).symm⟩
    | _ => cases h
  obtain ⟨v, rfl⟩ := hspread
  exact spreadConnection_eq v

/-- A mode that is valid has no colon in its text. -/
theorem noColon_of_mode {v : JsValue}
    (h : normalizeServerType v = .str "server" ∨ normalizeServerType v = .str "client") :
    ':' ∉ (host.text v).toList := by
  have htexts : ∀ s ∈ ["false", "true", "server", "client"], ':' ∉ s.toList := by decide
  cases v with
  | bool b =>
    cases b
    · exact htexts "false" (by decide)
    · exact htexts "true" (by decide)
  | str s =>
    obtain rfl | rfl : s = "server" ∨ s = "client" := by simpa [normalizeServerType] using h
    · exact htexts "server" (by decide)
    · exact htexts "client" (by decide)
  | _ => simp [normalizeServerType] at h

/-- What a valid connection has for its mode and its port has no colon in it. -/
theorem plainSides_of_valid {c r : JsValue} {p : String}
    (hvalid : validateConnectionConfig host.toConfigPlatform (sanitizeConnectionConfig r) p = none)
    (htype : r.get "serverType" = c.get "serverType") (hport : r.get "udpPort" = c.get "udpPort") :
    PlainSides host c := by
  constructor
  · have hmode := serverType_of_valid hvalid
    rw [get_sanitize_serverType, normalizeServerType_normalizeServerType, htype] at hmode
    exact noColon_of_mode hmode
  · obtain ⟨q, hq⟩ := udpPort_of_valid hvalid
    rw [get_sanitize_kept r (by decide) (by decide) (by decide), hport] at hq
    rw [hq]
    exact host.noColon q

/-- An entry whose secret has been restored keeps every other property. -/
theorem restoreEntry_get {persisted : List JsValue} {count i : ℕ} {c r : JsValue}
    (h : restoreEntry host persisted count i c = .ok r) (hc : ∃ fields, c = .obj fields) {key : String}
    (hkey : key ≠ "secretKey") : r.get key = c.get key := by
  obtain ⟨fields, rfl⟩ := hc
  rw [restoreEntry] at h
  split_ifs at h
  · cases h
    rfl
  · dsimp only at h
    split_ifs at h
    split at h
    · cases h
      simp [JsValue.get, entriesOf, lookup_setField, hkey]
    · cases h

/-- **What is saved of a posted connection**: one with the marker has the secret of a linked
persisted connection, any other has the secret it was posted with. -/
theorem saved_secret (h : finalConfig host persistedConfig body = .ok saved)
    (hposted : connectionListOf body = .ok posted) :
    (connectionsOf saved).length = posted.length ∧
      ∀ (i : ℕ) (c : JsValue), posted[i]? = some c → ∃ s, (connectionsOf saved)[i]? = some s ∧
        ((c.get "secretKey" ≠ .str REDACTED_SECRET ∧ s.get "secretKey" = c.get "secretKey") ∨
          ∃ j p, (getPersistedConnections persistedConfig)[j]? = some p ∧
            Linked host (getPersistedConnections persistedConfig) c j p ∧
            isText (p.get "secretKey") = true ∧ s.get "secretKey" = p.get "secretKey") := by
  obtain ⟨posted', restored, hposted', hrestored, hvalid, hsaved, -⟩ := finalConfig_cases h
  obtain rfl : posted = posted' := by
    rw [hposted] at hposted'
    exact Except.ok.inj hposted'
  have hentries := forall₂_of_mapM_ok hrestored
  have hlength : restored.length = posted.length := by
    rw [← hentries.length_eq, List.length_zipIdx]
  refine ⟨by rw [hsaved, List.length_map, hlength], fun i c hc => ?_⟩
  have hzip : posted.zipIdx[i]? = some (c, i) := by simp [hc]
  obtain ⟨r, hr, hentry⟩ := getElem?_of_forall₂ hentries hzip
  have hobject := isObject_of_posted hposted (List.mem_of_getElem? hc)
  have hs : (restored.map sanitizeConnectionConfig)[i]? = some (sanitizeConnectionConfig r) := by
    rw [List.getElem?_map, hr]
    rfl
  obtain ⟨p, hp⟩ := validate_of_firstValidationError hvalid hs
  have hplain := plainSides_of_valid hp (restoreEntry_get hentry hobject (by decide))
    (restoreEntry_get hentry hobject (by decide))
  have hsecret : (sanitizeConnectionConfig r).get "secretKey" = r.get "secretKey" :=
    get_sanitize_kept r (by decide) (by decide) (by decide)
  refine ⟨sanitizeConnectionConfig r, hsaved ▸ hs, ?_⟩
  by_cases hmarker : c.get "secretKey" = .str REDACTED_SECRET
  · obtain ⟨j, p, hj, hlinked, htext, rfl⟩ := restoreEntry_linked hplain hentry hmarker
    refine Or.inr ⟨j, p, hj, hlinked, htext, hsecret.trans ?_⟩
    simp [JsValue.get, lookup_setField]
  · rw [restoreEntry, if_pos hmarker] at hentry
    cases hentry
    exact Or.inl ⟨hmarker, hsecret⟩

end Saving

/-! ## Posting the unmodified answer -/

section Redacted

variable {host : ConfigHost}

theorem redactItems_eq (items : List JsValue) : redactItems items = items.map redactSecretKeys := by
  induction items with
  | nil => rfl
  | cons v rest ih => rw [redactItems, ih, List.map_cons]

/-- A property that is no secret is redacted inside. -/
theorem get_redact (v : JsValue) {key : String} (hkey : key ∉ SENSITIVE_FIELDS) :
    (redactSecretKeys v).get key = redactSecretKeys (v.get key) := by
  cases v with
  | obj fields =>
    show ((redactFields fields).lookup key).getD .undefined =
      redactSecretKeys ((fields.lookup key).getD .undefined)
    induction fields with
    | nil => rfl
    | cons e rest ih =>
      obtain ⟨k, v⟩ := e
      rw [redactFields, List.lookup_cons, List.lookup_cons]
      by_cases hk : key = k
      · subst hk
        simp [hkey]
      · simpa [beq_false_of_ne hk] using ih
  | _ => rfl

/-- A secret that is there is redacted, and one that is not stays away. -/
theorem get_redact_sensitive (v : JsValue) {key : String} (hkey : key ∈ SENSITIVE_FIELDS) :
    (redactSecretKeys v).get key = .str REDACTED_SECRET ∨
      ((redactSecretKeys v).get key = .undefined ∧ v.get key = .undefined) := by
  cases v with
  | obj fields =>
    show ((redactFields fields).lookup key).getD .undefined = .str REDACTED_SECRET ∨
      (((redactFields fields).lookup key).getD .undefined = .undefined ∧
        (fields.lookup key).getD .undefined = .undefined)
    induction fields with
    | nil => exact Or.inr ⟨rfl, rfl⟩
    | cons e rest ih =>
      obtain ⟨k, v⟩ := e
      rw [redactFields, List.lookup_cons, List.lookup_cons]
      by_cases hk : key = k
      · subst hk
        simp [hkey]
      · simpa [beq_false_of_ne hk] using ih
  | _ => exact Or.inr ⟨rfl, rfl⟩

@[simp] theorem truthy_redact (v : JsValue) : truthy (redactSecretKeys v) = truthy v := by
  cases v <;> rfl

mutual

/-- Redaction does not show in the text of a value. -/
theorem toText_redact (numberToString : ℚ → String) :
    ∀ v : JsValue, (redactSecretKeys v).toText numberToString = v.toText numberToString
  | .arr items => congrArg (",".intercalate ·) (toTextItems_redact numberToString items)
  | .obj _ | .undefined | .null | .bool _ | .num _ | .str _ => rfl

theorem toTextItems_redact (numberToString : ℚ → String) :
    ∀ items : List JsValue, JsValue.toTextItems numberToString (redactItems items) =
      JsValue.toTextItems numberToString items
  | [] => rfl
  | v :: rest => by
    have hv := toText_redact numberToString v
    have hrest := toTextItems_redact numberToString rest
    cases v <;> simp only [redactItems, redactSecretKeys, JsValue.toTextItems] at hv ⊢ <;>
      rw [hrest]
    all_goals exact congrArg (· :: _) hv

end

theorem spreadConnection_redact (v : JsValue) :
    spreadConnection (redactSecretKeys v) = redactSecretKeys (spreadConnection v) := by
  cases v <;> rfl

theorem normalizeConnectionId_redact (c : JsValue) :
    normalizeConnectionId ((redactSecretKeys c).get "connectionId") =
      normalizeConnectionId (c.get "connectionId") := by
  rw [get_redact c (by decide)]
  cases c.get "connectionId" <;> rfl

/-- Redaction leaves the identity of a connection alone. -/
theorem getLegacyConnectionIdentityKey_redact (c : JsValue) :
    getLegacyConnectionIdentityKey host (redactSecretKeys c) =
      getLegacyConnectionIdentityKey host c := by
  have hnone : ∀ v, (redactSecretKeys v = .undefined ↔ v = .undefined) ∧
      (redactSecretKeys v = .null ↔ v = .null) := by
    intro v
    cases v <;> simp [redactSecretKeys]
  have htext : ∀ v, host.text (redactSecretKeys v) = host.text v := fun v =>
    toText_redact host.numberToString v
  simp only [getLegacyConnectionIdentityKey, get_redact c (show "name" ∉ SENSITIVE_FIELDS by decide),
    get_redact c (show "serverType" ∉ SENSITIVE_FIELDS by decide),
    get_redact c (show "udpPort" ∉ SENSITIVE_FIELDS by decide), truthy_redact, hnone, htext]

/-- The connections of a redacted configuration are the redacted ones of the configuration. -/
theorem connectionListOf_redact {config : JsValue} {posted : List JsValue}
    (h : connectionListOf (redactSecretKeys config) = .ok posted) :
    posted = (getPersistedConnections config).map redactSecretKeys := by
  cases config with
  | obj fields =>
    have hconnections := get_redact (.obj fields) (show "connections" ∉ SENSITIVE_FIELDS by decide)
    have htype := get_redact (.obj fields) (show "serverType" ∉ SENSITIVE_FIELDS by decide)
    have hbody : redactSecretKeys (.obj fields) = .obj (redactFields fields) := rfl
    rw [hbody] at h hconnections htype
    rw [connectionListOf] at h
    simp only [hconnections, htype, truthy_redact] at h
    rw [getPersistedConnections]
    -- a list of connections, or a flat configuration
    cases hlist : (JsValue.obj fields).get "connections" with
    | arr items =>
      rw [hlist] at h
      cases items with
      | nil => cases h
      | cons v rest =>
        obtain rfl := Except.ok.inj h
        dsimp only
        rw [redactItems_eq, List.map_map, List.map_map]
        exact List.map_congr_left fun v _ => spreadConnection_redact v
    | _ =>
      rw [hlist] at h
      simp only [redactSecretKeys] at h
      split_ifs at h with htruthy
      obtain rfl := Except.ok.inj h
      rw [if_pos htruthy]
      rfl
  | _ => cases h

/-- A connection that is posted as it was redacted is linked with itself. -/
theorem Linked.eq_of_redacted {persisted : List JsValue} {i j : ℕ} {p q : JsValue}
    (h : Linked host persisted (redactSecretKeys p) j q) (hp : persisted[i]? = some p) : i = j := by
  cases h with
  | byId hc _ unique => exact unique i p hp (by rwa [normalizeConnectionId_redact] at hc)
  | byName unlinked _ hkey _ unique =>
    rw [getLegacyConnectionIdentityKey_redact] at hkey
    refine unique i p hp ?_ hkey
    rw [← normalizeConnectionId_redact]
    exact (unlinked p (List.mem_of_getElem? hp)).resolve_right
      (fun hne => hne (normalizeConnectionId_redact p).symm)

/-- The management token of a redacted configuration stands for the one of the configuration. -/
theorem resolveManagementToken_redact (config : JsValue) :
    resolveManagementToken config (redactSecretKeys config) = managementTokenOf config := by
  rw [resolveManagementToken]
  rcases get_redact_sensitive config (show "managementApiToken" ∈ SENSITIVE_FIELDS by decide) with
    h | ⟨h, -⟩
  · rw [h]
    exact if_pos rfl
  · rw [h]

/-- **Posting the unmodified answer**: every connection that is saved has the secret it had, and so
has the management token. -/
theorem saved_unmodified {persistedConfig saved : JsValue}
    (h : finalConfig host persistedConfig (redactSecretKeys persistedConfig) = .ok saved) :
    (connectionsOf saved).map (·.get "secretKey") =
        (getPersistedConnections persistedConfig).map (·.get "secretKey") ∧
      managementTokenOf saved = managementTokenOf persistedConfig := by
  obtain ⟨posted, restored, hposted, -, -, -, htoken⟩ := finalConfig_cases h
  refine ⟨?_, htoken.trans (resolveManagementToken_redact persistedConfig)⟩
  obtain ⟨hlength, hsecrets⟩ := saved_secret h hposted
  have hredacted := connectionListOf_redact hposted
  refine List.ext_getElem? fun i => ?_
  rw [List.getElem?_map, List.getElem?_map]
  cases hp : (getPersistedConnections persistedConfig)[i]? with
  | none =>
    have hlen : (getPersistedConnections persistedConfig).length ≤ i :=
      List.getElem?_eq_none_iff.1 hp
    rw [List.getElem?_eq_none (by rw [hlength, hredacted, List.length_map]; exact hlen)]
  | some p =>
    have hc : posted[i]? = some (redactSecretKeys p) := by
      rw [hredacted, List.getElem?_map, hp]
      rfl
    obtain ⟨s, hs, hcases⟩ := hsecrets i _ hc
    rw [hs, Option.map_some, Option.map_some]
    refine congrArg some ?_
    rcases hcases with ⟨hmarker, hsame⟩ | ⟨j, q, hj, hlinked, -, hsame⟩
    · -- nothing was redacted
      rcases get_redact_sensitive p (show "secretKey" ∈ SENSITIVE_FIELDS by decide) with
        h | ⟨h, h'⟩
      · exact absurd h hmarker
      · rw [hsame, h, h']
    · obtain rfl := hlinked.eq_of_redacted hp
      obtain rfl : p = q := Option.some.inj (hp.symm.trans hj)
      exact hsame

end Redacted

/-! ## The routes -/

/-- **Restored secrets.** What a POST saves has passed every check; each entry posted with the marker
has the secret of the persisted connection it is linked with; and a POST of the unmodified answer
saves every secret and the management token as they were. -/
theorem restored_secrets (host : ConfigHost) (handler : SaveHandler) (configuration body : JsValue) :
    ((postPluginConfig host handler configuration body).status ≠ 200 →
      (postPluginConfig host handler configuration body).saved = none) ∧
    (∀ saved, (postPluginConfig host handler configuration body).saved = some saved →
      ∃ posted, connectionListOf body = .ok posted ∧
        (connectionsOf saved).length = posted.length ∧
        ∀ (i : ℕ) (c : JsValue), posted[i]? = some c → c.get "secretKey" = .str REDACTED_SECRET →
          ∃ j p s, (getPersistedConnections (getPersistedConfiguration configuration))[j]? = some p ∧
            Linked host (getPersistedConnections (getPersistedConfiguration configuration)) c j p ∧
            (connectionsOf saved)[i]? = some s ∧ s.get "secretKey" = p.get "secretKey") ∧
    ∀ saved, (postPluginConfig host handler configuration
        (getPluginConfig configuration)).saved = some saved →
      (connectionsOf saved).map (·.get "secretKey") =
          (getPersistedConnections (getPersistedConfiguration configuration)).map
            (·.get "secretKey") ∧
        managementTokenOf saved = managementTokenOf (getPersistedConfiguration configuration) := by
  refine ⟨fun hstatus => ?_, fun saved h => ?_, fun saved h => ?_⟩
  · exact Option.not_isSome_iff_eq_none.1 (mt (saved_iff_status ..).1 hstatus)
  · have hfinal := postPluginConfig_saved h
    obtain ⟨posted, restored, hposted, -, -, -, -⟩ := finalConfig_cases hfinal
    obtain ⟨hlength, hsecrets⟩ := saved_secret hfinal hposted
    refine ⟨posted, hposted, hlength, fun i c hc hmarker => ?_⟩
    obtain ⟨s, hs, ⟨hnot, -⟩ | ⟨j, p, hj, hlinked, -, hsecret⟩⟩ := hsecrets i c hc
    · exact absurd hmarker hnot
    · exact ⟨j, p, s, hj, hlinked, hs, hsecret⟩
  · exact saved_unmodified (postPluginConfig_saved h)

/-! ## Examples -/

/-- Two keys that are accepted, and the port of the examples. -/
def exampleHost : ConfigHost where
  secretKeyError key :=
    if key = .str "kP3xV9mQ7zR2tW8nB5cD1fG6hJ4sL0aY" ∨ key = .str "ZYXWVUTSRQPONMLKJIHGFEDCBA654321"
    then none else some "Secret key must be 32 bytes"
  greaterThan _ _ := false
  numberToString q := if q = 4446 then "4446" else "0"
  noColon q := by
    split_ifs <;> decide
  toNumber _ := .nan

/-- A client on port 4446. -/
def exampleClient (name serverType secretKey : String) : List (String × JsValue) :=
  [("name", .str name), ("serverType", .str serverType), ("udpPort", .num (.finite 4446)),
    ("secretKey", .str secretKey), ("protocolVersion", .num (.finite 3)),
    ("udpAddress", .str "203.0.113.7")]

/-- Two boats with the same name, mode and port: the first has a `connectionId`. -/
def twoBoats : JsValue :=
  .obj [("connections", .arr [
      .obj (("connectionId", .str " shore-1 ") ::
        exampleClient "boat" "client" "kP3xV9mQ7zR2tW8nB5cD1fG6hJ4sL0aY"),
      .obj (exampleClient "boat" "client" "ZYXWVUTSRQPONMLKJIHGFEDCBA654321")]),
    ("managementApiToken", .str "harbour")]

theorem restored_secrets_twoBoats : ∃ saved,
    (postPluginConfig exampleHost .savePluginOptions twoBoats
      (getPluginConfig twoBoats)).saved = some saved ∧
    (connectionsOf saved).map (·.get "secretKey") =
      [.str "kP3xV9mQ7zR2tW8nB5cD1fG6hJ4sL0aY", .str "ZYXWVUTSRQPONMLKJIHGFEDCBA654321"] ∧
    managementTokenOf saved = some "harbour" := by
  obtain ⟨saved, h⟩ := Option.isSome_iff_exists.1 (show (postPluginConfig exampleHost
    .savePluginOptions twoBoats (getPluginConfig twoBoats)).saved.isSome by decide +kernel)
  obtain ⟨hsecrets, htoken⟩ := (restored_secrets exampleHost .savePluginOptions twoBoats
    (getPluginConfig twoBoats)).2.2 saved h
  exact ⟨saved, h, hsecrets.trans (by decide +kernel), htoken.trans (by decide +kernel)⟩

/-- A connection whose mode no validation accepts: its identity text is that of `a::b`, a client. -/
def confusable : JsValue :=
  .obj [("connections", .arr [
      .obj (exampleClient "a" "b::client" "kP3xV9mQ7zR2tW8nB5cD1fG6hJ4sL0aY")])]

/-- A management token that is no string, which authenticates nobody. -/
def numericToken : JsValue :=
  .obj [("connections", .arr [
      .obj (exampleClient "boat" "client" "kP3xV9mQ7zR2tW8nB5cD1fG6hJ4sL0aY")]),
    ("managementApiToken", .num (.finite 42))]

/-- The secrets that a POST of one connection saves. -/
def savedSecrets (configuration : JsValue) (connection : List (String × JsValue)) :
    Option (List JsValue) :=
  ((postPluginConfig exampleHost .savePluginOptions configuration
    (.obj [("connections", .arr [.obj connection])])).saved.map connectionsOf).map
      fun connections => connections.map (·.get "secretKey")

/-- A posted client `a::b` is given the secret of a connection with another name and another mode; a
posted boat that of one of two boats with its name, mode and port; and a token that is no string is
not kept. -/
theorem restored_from_other :
    (savedSecrets confusable (exampleClient "a::b" "client" REDACTED_SECRET) =
        some [.str "kP3xV9mQ7zR2tW8nB5cD1fG6hJ4sL0aY"] ∧
      (getPersistedConnections confusable).all fun p =>
        p.get "connectionId" = .undefined ∧ p.get "name" ≠ .str "a::b" ∧
          p.get "serverType" ≠ .str "client") ∧
    (savedSecrets twoBoats (exampleClient "boat" "client" REDACTED_SECRET) =
        some [.str "ZYXWVUTSRQPONMLKJIHGFEDCBA654321"] ∧
      (getPersistedConnections twoBoats).length = 2 ∧
      (getPersistedConnections twoBoats).all fun p =>
        p.get "name" = .str "boat" ∧ p.get "serverType" = .str "client" ∧
          p.get "udpPort" = .num (.finite 4446)) ∧
    (postPluginConfig exampleHost .savePluginOptions numericToken
      (getPluginConfig numericToken)).saved.map (·.get "managementApiToken") = some .undefined := by
  decide +kernel

end EdgeLink
