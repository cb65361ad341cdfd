import EdgeLink.Codec.Delta
import EdgeLink.Codec.JsText
import EdgeLink.Foundations.OrderedMap
import EdgeLink.Foundations.Run
import Mathlib.Data.List.Sort

/-!
# The source registry

`domain/source-registry.ts`: the server keeps a record of every source that its clients name, and
merges the identity fields of each update into the record of its key. Of two values of a field the
later one is meant to win; but the record remembers only the timestamp of the update that came in
last, also where that update has lost.

The clock is read once in each call. Of the platform the registry uses the functions in
`RegistryPlatform`. The `metadata` of a record is always the empty object.

* `chooseValue`, `mergeExistingRecord`: the merge.
* `upsertSingleUpdate`, `upsertFromDelta`: one update, and the updates of a delta.
-/

namespace EdgeLink

open JsValue

def SOURCE_REGISTRY_MAX_RECORDS : ℕ := 5000

def SOURCE_REGISTRY_TTL_MS : Time := 7 * 24 * 60 * 60 * 1000

def SOURCE_REPLICATION_SCHEMA_VERSION : ℚ := 1

/-- The functions of the platform. -/
structure RegistryPlatform where
  toLowerCase : String → String
  /-- `Number` of a string -/
  stringToNumber : String → JsNumber
  numberToString : ℚ → String
  /-- `Date.parse`, `none` for a text that is not a date -/
  dateParse : String → Option Time
  /-- the digest of a text, as hexadecimal digits -/
  sha256 : String → String

/-! ## The identity of a source -/

/-- A text that is not empty once trimmed. -/
def normalizeText : JsValue → Option String
  | .str s => if trim s = "" then none else some (trim s)
  | _ => none

/-- A text, or `undefined`. -/
def ofText (text : Option String) : JsValue := (text.map JsValue.str).getD .undefined

def isKeyChar (c : Char) : Bool :=
  (97 ≤ c.toNat && c.toNat ≤ 122) || (48 ≤ c.toNat && c.toNat ≤ 57) || c = '.' || c = '_' ||
    c = ':' || c = '-'

/-- Replace each run of characters that may not stand in a key by one hyphen. -/
def replaceRuns : Bool → List Char → List Char
  | _, [] => []
  | inRun, c :: rest =>
    if isKeyChar c then c :: replaceRuns false rest
    else if inRun then replaceRuns true rest
    else '-' :: replaceRuns true rest

structure SourceIdentity where
  label : JsValue
  type : JsValue
  src : JsValue
  instanceName : JsValue
  pgn : JsValue
  deviceId : JsValue
  deriving DecidableEq

/-- Source fields of an update, before the identity is resolved. -/
structure ParsedSourceFields where
  sourceRef : Option String
  label : Option String
  type : String
  src : Option String
  instanceName : Option String
  pgn : Option ℚ
  parsedDeviceId : Option String

namespace RegistryPlatform

variable (platform : RegistryPlatform)

def sanitizeKeyPart (value : String) : String :=
  let replaced := replaceRuns false (platform.toLowerCase value).toList
  let stripped := ((replaced.dropWhile (· = '-')).reverse.dropWhile (· = '-')).reverse
  String.ofList (stripped.take 128)

/-- `Number(v)`. -/
def number : JsValue → JsNumber
  | .undefined => .nan
  | .null => .finite 0
  | .bool b => .finite (if b then 1 else 0)
  | .num n => n
  | .str s => platform.stringToNumber s
  | .arr items => platform.stringToNumber ((JsValue.arr items).toText platform.numberToString)
  | .obj _ => .nan

/-- The structured source of an update, `undefined` when there is none. -/
def sourceObject (update : DeltaUpdate) : JsValue :=
  if update.source.isObjectType ∧ update.source ≠ .null then update.source else .undefined

def normalizedRef (update : DeltaUpdate) : Option String :=
  update.sourceRef.bind fun ref => normalizeText (.str ref)

def parseSourceFields (update : DeltaUpdate) : ParsedSourceFields :=
  let source := sourceObject update
  let sourceRef := normalizedRef update
  { sourceRef := sourceRef
    label := (normalizeText (source.get "label")).or (sourceRef.map ("legacy:" ++ ·))
    type := (normalizeText (source.get "type")).getD
      (if sourceRef.isSome then "legacy" else "unknown")
    src := normalizeText (source.get "src")
    instanceName := normalizeText (source.get "instance")
    pgn := match platform.number (source.get "pgn") with
      | .finite q => some q
      | _ => none
    parsedDeviceId := normalizeText (source.get "deviceId") }

end RegistryPlatform

def ParsedSourceFields.hasAnySourceMetadata (fields : ParsedSourceFields) : Bool :=
  fields.label.isSome || fields.sourceRef.isSome || fields.src.isSome || fields.instanceName.isSome ||
    fields.pgn.isSome || fields.parsedDeviceId.isSome

namespace RegistryPlatform

variable (platform : RegistryPlatform)

/-- The identity that an update gives its source, if it says anything about it. -/
def toCanonicalIdentity (update : DeltaUpdate) (sourceClientInstanceId : String) :
    Option SourceIdentity :=
  let fields := platform.parseSourceFields update
  if fields.hasAnySourceMetadata then
    some {
      label := .str (fields.label.getD "unknown-source")
      type := .str ((normalizeText (.str fields.type)).getD "unknown")
      src := ofText fields.src
      instanceName := ofText fields.instanceName
      pgn := (fields.pgn.map fun q => JsValue.num (.finite q)).getD .undefined
      deviceId := ofText (fields.parsedDeviceId.or
        (if sourceClientInstanceId = "" then none
          else some (platform.sanitizeKeyPart sourceClientInstanceId))) }
  else none

/-- The key of the record of an update. -/
def createSourceKey (update : DeltaUpdate) (identity : SourceIdentity) : String :=
  match normalizedRef update with
  | some sourceRef => "source-ref:" ++ platform.sanitizeKeyPart sourceRef
  | none =>
    let orEmpty := fun v : JsValue => if v = .undefined then JsValue.str "" else v
    "source-identity:" ++ platform.sha256 ((JsValue.obj [("type", orEmpty identity.type),
      ("label", orEmpty identity.label), ("src", orEmpty identity.src),
      ("instance", orEmpty identity.instanceName), ("pgn", orEmpty identity.pgn),
      ("deviceId", orEmpty identity.deviceId)]).jsonText platform.numberToString)

end RegistryPlatform

/-! ## Records -/

inductive LastUpdatedBy where
  | source
  | sourceRef
  | merge
  deriving DecidableEq

def LastUpdatedBy.text : LastUpdatedBy → String
  | source => "source"
  | sourceRef => "$source"
  | merge => "merge"

/-- A record before its hash is computed. -/
structure MergedRecord where
  key : String
  identity : SourceIdentity
  firstSeenAt : Time
  lastSeenAt : Time
  lastUpdatedAt : Time
  lastUpdatedBy : LastUpdatedBy
  sourceClientInstanceId : String
  updateTimestamp : Option String
  rawSource : JsValue
  rawSourceRef : Option String

structure SourceReplicationRecord extends MergedRecord where
  mergeHash : String

/-! ## The merge hash -/

/-- The code units of a text. -/
def utf16 (text : List Char) : List ℕ :=
  text.flatMap fun c =>
    if c.toNat < 0x10000 then [c.toNat]
    else [0xd800 + (c.toNat - 0x10000) / 0x400, 0xdc00 + (c.toNat - 0x10000) % 0x400]

/-- A string in quotes, as JSON writes it. -/
def quoted (s : String) : List Char := '"' :: s.toList.flatMap (jsonChar · |>.toList) ++ ['"']

/-- Sort the properties of an object by their names. -/
def sortKeys (fields : List (String × List Char)) : List (String × List Char) :=
  fields.insertionSort fun a b => utf16 a.1.toList ≤ utf16 b.1.toList

mutual

/-- The text of a value with sorted keys, as its characters. -/
def stableStringify (numberToString : ℚ → String) : JsValue → List Char
  | .undefined => "null".toList
  | .null => "null".toList
  | .arr items => '[' :: [','].intercalate (stableItems numberToString items) ++ [']']
  | .obj fields =>
    '{' :: [','].intercalate ((sortKeys (stableFields numberToString fields)).map fun e =>
      quoted e.1 ++ ':' :: e.2) ++ ['}']
  | .bool b => if b then "true".toList else "false".toList
  | .num (.finite q) => (numberToString q).toList
  | .num _ => "null".toList
  | .str s => quoted s

def stableItems (numberToString : ℚ → String) : List JsValue → List (List Char)
  | [] => []
  | v :: rest => stableStringify numberToString v :: stableItems numberToString rest

def stableFields (numberToString : ℚ → String) :
    List (String × JsValue) → List (String × List Char)
  | [] => []
  | (k, v) :: rest => (k, stableStringify numberToString v) :: stableFields numberToString rest

end

/-- FNV-1a in 32 bits. -/
def fnv1a (input : List Char) (seed : BitVec 32) : BitVec 32 :=
  (utf16 input).foldl (fun hash unit =>
    let hash := hash ^^^ BitVec.ofNat 32 unit
    hash + ((hash <<< 1) + (hash <<< 4) + (hash <<< 7) + (hash <<< 8) + (hash <<< 24))) seed

/-- Eight hexadecimal digits. -/
def hex8 (n : BitVec 32) : String :=
  String.ofList ((List.range 8).reverse.map fun i => hexDigit (n.toNat / 16 ^ i % 16))

/-- What the hash of a record covers. -/
def MergedRecord.stablePayload (record : MergedRecord) : JsValue :=
  .obj [("schemaVersion", .num (.finite SOURCE_REPLICATION_SCHEMA_VERSION)),
    ("key", .str record.key),
    ("identity", .obj [("label", record.identity.label), ("type", record.identity.type),
      ("src", record.identity.src), ("instance", record.identity.instanceName),
      ("pgn", record.identity.pgn), ("deviceId", record.identity.deviceId)]),
    ("metadata", .obj []),
    ("provenance", .obj [("lastUpdatedBy", .str record.lastUpdatedBy.text),
      ("sourceClientInstanceId", .str record.sourceClientInstanceId),
      ("updateTimestamp", ofText record.updateTimestamp)]),
    ("raw", .obj [("source", record.rawSource), ("$source", ofText record.rawSourceRef)])]

def toMergeHash (numberToString : ℚ → String) (record : MergedRecord) : String :=
  let canonical := stableStringify numberToString record.stablePayload
  hex8 (fnv1a canonical 0x811c9dc5) ++ hex8 (fnv1a canonical 0x01000193)

/-! ## The merge -/

/-- A value that never replaces another. -/
def isBlank (v : JsValue) : Bool := v = .undefined || v = .null || v = .str ""

/-- The value of a field after a merge, and whether there was a conflict. -/
def chooseValue (numberToString : ℚ → String) (current incoming : JsValue)
    (currentTs incomingTs : Time) : JsValue × Bool :=
  if isBlank incoming then (current, false)
  else if isBlank current then (incoming, false)
  else if current = incoming then (current, false)
  else if current.isObjectType = false ∧ incoming.isObjectType = false then
    (if currentTs ≤ incomingTs then incoming else current, true)
  else if current.stringify.jsonText numberToString = incoming.stringify.jsonText numberToString then
    (current, false)
  else (if currentTs ≤ incomingTs then incoming else current, true)

/-- A copy of an object; that of an array has its indices as names. -/
def spread : JsValue → JsValue
  | .arr items => .obj (items.mapIdx fun i v => (toString i, v))
  | v => v

namespace RegistryPlatform

variable (platform : RegistryPlatform)

/-- The record of an update before it is merged with the existing one. -/
def buildMergedBase (update : DeltaUpdate) (identity : SourceIdentity) (key : String)
    (sourceClientInstanceId : String) (existing : Option SourceReplicationRecord) (now : Time) :
    MergedRecord where
  key := key
  identity := identity
  firstSeenAt := (existing.map (·.firstSeenAt)).getD now
  lastSeenAt := (existing.map (·.lastSeenAt)).getD now
  lastUpdatedAt := (existing.map (·.lastUpdatedAt)).getD now
  lastUpdatedBy :=
    if sourceObject update ≠ .undefined then .source
    else if update.sourceRef.getD "" ≠ "" then .sourceRef else .merge
  sourceClientInstanceId := sourceClientInstanceId
  updateTimestamp := update.timestamp.bind fun timestamp => normalizeText (.str timestamp)
  rawSource := spread (sourceObject update)
  rawSourceRef := normalizedRef update

/-- The time of the existing side of a merge. -/
def resolveExistingTs (existing : SourceReplicationRecord) : Time :=
  ((existing.updateTimestamp.bind fun timestamp => normalizeText (.str timestamp)).bind
    platform.dateParse).getD existing.lastUpdatedAt

/-- Merge the identity of the existing record into that of the update, with the number of
conflicts. -/
def mergeExistingRecord (existing : SourceReplicationRecord) (mergedBase : MergedRecord)
    (updateTsMs : Time) : MergedRecord × ℕ :=
  let currentTs := platform.resolveExistingTs existing
  let pick := fun current incoming =>
    chooseValue platform.numberToString current incoming currentTs updateTsMs
  let label := pick existing.identity.label mergedBase.identity.label
  let type := pick existing.identity.type mergedBase.identity.type
  let src := pick existing.identity.src mergedBase.identity.src
  let instanceName := pick existing.identity.instanceName mergedBase.identity.instanceName
  let pgn := pick existing.identity.pgn mergedBase.identity.pgn
  let deviceId := pick existing.identity.deviceId mergedBase.identity.deviceId
  ({ mergedBase with
      identity := ⟨label.1, type.1, src.1, instanceName.1, pgn.1, deviceId.1⟩ },
    [label.2, type.2, src.2, instanceName.2, pgn.2, deviceId.2].count true)

end RegistryPlatform

/-! ## The registry -/

structure SourceRegistry where
  /-- the records, least recently seen first -/
  records : OrderedMap String SourceReplicationRecord
  upserts : ℕ
  noops : ℕ
  missingIdentity : ℕ
  conflicts : ℕ
  evictions : ℕ

namespace SourceRegistry

def new : SourceRegistry := ⟨.empty, 0, 0, 0, 0, 0⟩

/-- The number of records at the head that have not been seen for too long. -/
def staleCount (records : List (String × SourceReplicationRecord)) (now : Time) : ℕ :=
  (records.takeWhile fun e => decide (e.2.lastSeenAt < now - SOURCE_REGISTRY_TTL_MS)).length

/-- Drop the stale records at the head, and the oldest ones beyond the limit. -/
def evictStaleAndOverflow (s : SourceRegistry) (now : Time) : SourceRegistry :=
  let stale := staleCount s.records.entries now
  let overflow := s.records.size - stale - SOURCE_REGISTRY_MAX_RECORDS
  { s with
    records := s.records.dropOldest (stale + overflow)
    evictions := s.evictions + (stale + overflow) }

/-- Write a record at the tail. -/
def refresh (records : OrderedMap String SourceReplicationRecord) (key : String)
    (record : SourceReplicationRecord) : OrderedMap String SourceReplicationRecord :=
  (records.delete key).set key record

variable (platform : RegistryPlatform)

/-- The record of an update, merged with the existing one, and the number of conflicts. -/
def mergedRecord (update : DeltaUpdate) (identity : SourceIdentity) (key : String)
    (sourceClientInstanceId : String) (existing : Option SourceReplicationRecord) (now : Time) :
    MergedRecord × ℕ :=
  let updateTsMs := ((update.timestamp.bind fun timestamp => normalizeText (.str timestamp)).bind
    platform.dateParse).getD now
  let mergedBase :=
    RegistryPlatform.buildMergedBase update identity key sourceClientInstanceId existing now
  match existing with
  | some record => platform.mergeExistingRecord record mergedBase updateTsMs
  | none => (mergedBase, 0)

/-- Store a merged record, unless the existing one has the same hash. -/
def storeMerged (s : SourceRegistry) (key : String) (existing : Option SourceReplicationRecord)
    (merged : MergedRecord) (now : Time) : SourceRegistry :=
  let mergeHash := toMergeHash platform.numberToString merged
  match existing.filter (·.mergeHash = mergeHash) with
  | some record =>
    { s with
      records := refresh s.records key { record with lastSeenAt := now }
      noops := s.noops + 1 }
  | none =>
    let record : SourceReplicationRecord :=
      { merged with lastSeenAt := now, lastUpdatedAt := now, mergeHash := mergeHash }
    let s := { s with records := refresh s.records key record, upserts := s.upserts + 1 }
    if SOURCE_REGISTRY_MAX_RECORDS < s.records.size then s.evictStaleAndOverflow now else s

/-- Merge one update into the registry. -/
def upsertSingleUpdate (s : SourceRegistry) (update : DeltaUpdate)
    (sourceClientInstanceId : String) (now : Time) : SourceRegistry :=
  match platform.toCanonicalIdentity update sourceClientInstanceId with
  | none => { s with missingIdentity := s.missingIdentity + 1 }
  | some identity =>
    let key := platform.createSourceKey update identity
    let existing := s.records.get? key
    let merged := mergedRecord platform update identity key sourceClientInstanceId existing now
    storeMerged platform { s with conflicts := s.conflicts + merged.2 } key existing merged.1 now

/-- Merge the updates of a delta. -/
def upsertFromDelta (s : SourceRegistry) (delta : Delta) (sourceClientInstanceId : String)
    (now : Time) : SourceRegistry :=
  (delta.updates.foldl
    (fun s update => s.upsertSingleUpdate platform update sourceClientInstanceId now) s)
    |>.evictStaleAndOverflow now

end SourceRegistry

end EdgeLink
