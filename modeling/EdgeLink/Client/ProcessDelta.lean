import EdgeLink.Client.DeltaBatcher
import EdgeLink.Codec.Delta
import EdgeLink.Codec.JsText
import EdgeLink.Foundations.OrderedMap
import EdgeLink.Foundations.Run

/-!
# Outbound deltas

The producer's side of the send loop, `app/connection/process-delta.ts`: a delta is sanitised,
suppressed when the same delta was seen a moment ago, and buffered.

* `processDelta_fst`: the buffer is left alone, or the admitted delta is put into it.
-/

namespace EdgeLink

open JsValue

def OUTBOUND_DUPLICATE_SUPPRESS_MS : Time := 1500

def OUTBOUND_DEDUPE_MAX_ENTRIES : ℕ := 5000

/-- The configuration of the producer. -/
structure ProducerOptions where
  skipOwnData : Bool
  /-- how numbers are printed -/
  numberToString : ℚ → String

/-- Every number is printed alike. -/
def plainOptions : ProducerOptions := ⟨false, fun _ => "0"⟩

/-! ## The plugin's own data -/

/-- `networking.modem.rtt` and `networking.edgeLink.rtt`, also with an instance in between. -/
def isRttPath (path : String) : Bool :=
  let link := fun segment => segment = "modem" ∨ segment = "edgeLink"
  match (path.toList.splitOn '.').map String.ofList with
  | ["networking", modem, "rtt"] => link modem
  | ["networking", modem, instanceId, "rtt"] => link modem ∧ instanceId ≠ ""
  | _ => false

/-- A path that the plugin publishes itself, round-trip times excepted. -/
def isOwnDataPath (path : String) : Bool :=
  !isRttPath path &&
    (path == "networking.edgeLink" || "networking.edgeLink.".toList.isPrefixOf path.toList)

def stripOwnDataFromUpdate (update : DeltaUpdate) : Option DeltaUpdate :=
  let values := update.values.filter fun v => !isOwnDataPath v.path
  let meta? := update.metaEntries.map fun entries => entries.filter fun m => !isOwnDataPath m.path
  if values = [] ∧ meta?.getD [] = [] then none
  else if values = update.values ∧ meta? = update.metaEntries then some update
  else some { update with
    values := values
    metaEntries := if meta?.getD [] = [] then none else meta? }

/-- Drop the plugin's own data, and the delta when nothing is left of it. -/
def stripOwnDataFromDelta (delta : Delta) : Option Delta :=
  match delta.updates.filterMap stripOwnDataFromUpdate with
  | [] => none
  | updates => some { delta with updates := updates }

/-- What is sent of a delta. -/
def outboundDelta (opts : ProducerOptions) (delta : Delta) : Option Delta :=
  match sanitizeDeltaForSignalK delta with
  | none => none
  | some sanitized => if opts.skipOwnData then stripOwnDataFromDelta sanitized else some sanitized

/-! ## Recent duplicates -/

/-- A tagged part of a key, with its length. -/
def keyPart (tag : String) (raw : String) : String :=
  tag ++ toString (utf16Length raw) ++ ":" ++ raw

/-- The text of an optional property. -/
def propertyText (opts : ProducerOptions) (v : JsValue) : String :=
  if v = .undefined ∨ v = .null then "" else v.toText opts.numberToString

/-- The text of a value in a key. -/
def valueText (opts : ProducerOptions) (v : JsValue) : String :=
  if v = .undefined ∨ v = .null then ""
  else if v.isObjectType then (stringify v).jsonText opts.numberToString
  else v.toText opts.numberToString

def dedupeKeyOfValue (opts : ProducerOptions) (v : DeltaValue) : String :=
  "|v" ++ keyPart "p" v.path ++ keyPart "v" (valueText opts v.value)

def dedupeKeyOfUpdate (opts : ProducerOptions) (update : DeltaUpdate) : String :=
  "|u" ++ keyPart "s" (update.sourceRef.getD "") ++
    (if update.source.isObjectType ∧ update.source ≠ .null then
      keyPart "sl" (propertyText opts (update.source.get "label")) ++
        keyPart "st" (propertyText opts (update.source.get "type")) ++
        keyPart "ss" (propertyText opts (update.source.get "src"))
    else "") ++
    keyPart "t" (update.timestamp.getD "") ++
    String.join (update.values.map (dedupeKeyOfValue opts))

/-- The key under which a delta is remembered. -/
def buildOutboundDedupeKey (opts : ProducerOptions) (delta : Delta) : String :=
  keyPart "c" (delta.context.getD "") ++ String.join (delta.updates.map (dedupeKeyOfUpdate opts))

/-- Forget what is no longer recent, and the oldest keys beyond the capacity. -/
def cleanupDedupeMap (recent : OrderedMap String Time) (now : Time) : OrderedMap String Time :=
  let recent := recent.filter fun _ seenAt => ¬ OUTBOUND_DUPLICATE_SUPPRESS_MS < now - seenAt
  recent.dropOldest (recent.size - OUTBOUND_DEDUPE_MAX_ENTRIES)

/-- Whether the delta was seen a moment ago; otherwise remember it. -/
def suppressDuplicate (opts : ProducerOptions) (recent : OrderedMap String Time) (delta : Delta)
    (now : Time) : OrderedMap String Time × Bool :=
  let key := buildOutboundDedupeKey opts delta
  match recent.get? key with
  | some seenAt =>
    if now - seenAt ≤ OUTBOUND_DUPLICATE_SUPPRESS_MS then (recent, true) else remember key
  | none => remember key
where
  remember (key : String) : OrderedMap String Time × Bool :=
    let recent := recent.set key now
    (if OUTBOUND_DEDUPE_MAX_ENTRIES < recent.size then cleanupDedupeMap recent now else recent,
      false)

/-! ## The producer -/

/-- What is buffered of an inbound delta, and what is remembered of it. -/
def admitDelta (opts : ProducerOptions) (recent : OrderedMap String Time) (now : Time)
    (delta : Delta) : OrderedMap String Time × Option Delta :=
  match outboundDelta opts delta with
  | none => (recent, none)
  | some out =>
    let r := suppressDuplicate opts recent out now
    (r.1, if r.2 then none else some out)

/-- What an inbound delta puts into the buffer. -/
def buffered {δ : Type*} (opts : ProducerOptions) (s : InstanceState δ)
    (recent : OrderedMap String Time) (now : Time) (delta : Delta) : Option Delta :=
  if ¬ s.readyToSend ∨ s.subscribing then none else (admitDelta opts recent now delta).2

/-- Process one inbound delta. `tag` makes a buffer entry of it. -/
def processDelta {δ : Type*} (opts : ProducerOptions) (tag : Delta → δ) (s : InstanceState δ)
    (recent : OrderedMap String Time) (now : Time) (delta : Delta) :
    InstanceState δ × OrderedMap String Time :=
  if ¬ s.readyToSend ∨ s.subscribing then (s, recent)
  else
    let r := admitDelta opts recent now delta
    match r.2 with
    | none => (s, r.1)
    | some out => (s.enqueue (tag out), r.1)

theorem processDelta_fst {δ : Type*} (opts : ProducerOptions) (tag : Delta → δ)
    (s : InstanceState δ) (recent : OrderedMap String Time) (now : Time) (delta : Delta) :
    (processDelta opts tag s recent now delta).1 =
      ((buffered opts s recent now delta).map fun out => s.enqueue (tag out)).getD s := by
  rw [processDelta, buffered]
  split_ifs
  · rfl
  · dsimp only
    split
    next h => rw [h]; rfl
    next h => rw [h]; rfl

end EdgeLink
