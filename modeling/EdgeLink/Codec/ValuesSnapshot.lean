import EdgeLink.Codec.Delta
import EdgeLink.Foundations.OrderedMap

/-!
# Snapshots of the Signal K tree

`codec/values-snapshot.ts`: the value leaves of the full model tree, grouped into synthetic deltas
by context, source and timestamp.

* `collectValuesSnapshot` walks a tree and builds its deltas.
* `single_of_mem_snapshot`: each of them is one update with values and without metadata.
-/

namespace EdgeLink

open JsValue

/-- Keys of a leaf that the walk does not descend into. -/
def SK_LEAF_KEYS : List String :=
  ["value", "values", "timestamp", "$source", "meta", "sentence", "pgn"]

/-- Keys of the tree that are no groups of contexts. -/
def SK_NON_CONTEXT_KEYS : List String := ["self", "version", "sources"]

/-- A value of the tree. -/
structure ValueLeaf where
  path : String
  value : JsValue
  timestamp : String
  source : Option String
  deriving DecidableEq

/-- Entries of an object; no other value is a record. -/
def recordFields : JsValue → Option (List (String × JsValue))
  | .obj fields => some fields
  | _ => none

/-- `typeof v === "string" ? v : undefined`. -/
def stringOf : JsValue → Option String
  | .str s => some s
  | _ => none

/-! ## The leaves of a tree -/

/-- The value of a node that has a `value` with a timestamp. -/
def readLeafFromNode (path : String) (fields : List (String × JsValue)) : Option ValueLeaf :=
  match fields.lookup "value", stringOf ((JsValue.obj fields).get "timestamp") with
  | some value, some timestamp =>
    some ⟨path, value, timestamp, stringOf ((JsValue.obj fields).get "$source")⟩
  | _, _ => none

/-- The value of one source in a `values` map. -/
def readSourceLeaf (path : String) (entry : String × JsValue) : Option ValueLeaf :=
  (recordFields entry.2).bind fun fields =>
    (readLeafFromNode path fields).map fun leaf => { leaf with source := some entry.1 }

mutual

/-- The leaves below a node. A node with a value of its own is read as that, then as the map of the
values of its sources, and only then as a container. -/
def walkValues (pathParts : List String) : JsValue → List ValueLeaf
  | .obj fields =>
    match readLeafFromNode (".".intercalate pathParts) fields,
      recordFields ((JsValue.obj fields).get "values") with
    | some leaf, _ => [leaf]
    | none, some sources => sources.filterMap (readSourceLeaf (".".intercalate pathParts))
    | none, none => walkFields pathParts fields
  | _ => []

def walkFields (pathParts : List String) : List (String × JsValue) → List ValueLeaf
  | [] => []
  | (key, node) :: rest =>
    (if key ∈ SK_LEAF_KEYS then [] else walkValues (pathParts ++ [key]) node) ++
      walkFields pathParts rest

end

/-! ## Sources -/

/-- The source objects of the tree, by reference. -/
def buildSourceLookup (tree : List (String × JsValue)) : OrderedMap String JsValue :=
  ((recordFields ((JsValue.obj tree).get "sources")).getD []).foldl (fun lookup provider =>
    ((recordFields provider.2).getD []).foldl (fun lookup source =>
      match source.2 with
      | .obj _ => lookup.set (provider.1 ++ "." ++ source.1) source.2
      | _ => lookup) lookup) .empty

/-- The source object of a reference; without one, a label from the part before the first dot. -/
def resolveSource (sourceRef : String) (lookup : OrderedMap String JsValue) : JsValue :=
  match lookup.get? sourceRef with
  | some found => found
  | none =>
    let provider := sourceRef.toList.takeWhile (· ≠ '.')
    let label := if provider ≠ [] then String.ofList provider else sourceRef
    if label = "" then .undefined else .obj [("label", .str label)]

/-- The plugin's own name, or a name below it. -/
def isOwnSource (name : String) : Bool :=
  name == "signalk-edge-link" || "signalk-edge-link.".toList.isPrefixOf name.toList ||
    "signalk-edge-link:".toList.isPrefixOf name.toList

/-- A leaf that the plugin has injected and whose original source is not known. -/
def shouldSkipOwnInjectedLeaf (source : Option String) (lookup : OrderedMap String JsValue) :
    Bool :=
  let src := source.getD ""
  let resolved := (lookup.get? src).getD .undefined
  let resolvedLabel := trim ((stringOf (resolved.get "label")).getD "")
  isOwnSource src && (resolvedLabel == "" || isOwnSource resolvedLabel)

/-! ## The synthetic deltas -/

/-- The values with one context, source and timestamp. -/
structure SnapshotGroup where
  context : String
  source : Option String
  timestamp : String
  values : List DeltaValue

def groupLeaf (context : String) (grouped : OrderedMap String SnapshotGroup) (leaf : ValueLeaf) :
    OrderedMap String SnapshotGroup :=
  let key := context ++ "|" ++ leaf.source.getD "" ++ "|" ++ leaf.timestamp
  let value : DeltaValue := ⟨leaf.path, leaf.value⟩
  match grouped.get? key with
  | some existing => grouped.set key { existing with values := existing.values ++ [value] }
  | none => grouped.set key ⟨context, leaf.source, leaf.timestamp, [value]⟩

/-- The contexts of a tree with their nodes. -/
def contextsOf (tree : List (String × JsValue)) : List (String × JsValue) :=
  (tree.filter fun group => group.1 ∉ SK_NON_CONTEXT_KEYS).flatMap fun group =>
    ((recordFields group.2).getD []).map fun node => (group.1 ++ "." ++ node.1, node.2)

def groupLeavesByMeasurement (tree : List (String × JsValue)) (lookup : OrderedMap String JsValue) :
    OrderedMap String SnapshotGroup :=
  (contextsOf tree).foldl (fun grouped node =>
    ((walkValues [] node.2).filter fun leaf =>
      !shouldSkipOwnInjectedLeaf leaf.source lookup).foldl (groupLeaf node.1) grouped) .empty

/-- The delta of a group. -/
def snapshotDelta (lookup : OrderedMap String JsValue) (entry : SnapshotGroup) : Delta :=
  let sourceRef := entry.source.filter (· ≠ "")
  { context := some entry.context
    updates := [{
      source := (sourceRef.map (resolveSource · lookup)).getD .undefined
      sourceRef := sourceRef
      timestamp := some entry.timestamp
      values := entry.values }] }

def buildSnapshotDeltas (grouped : OrderedMap String SnapshotGroup)
    (lookup : OrderedMap String JsValue) : List Delta :=
  (grouped.values.filter fun entry => entry.values ≠ []).map (snapshotDelta lookup)

/-- The deltas for every value in a tree, none when there is no tree. -/
def collectValuesSnapshot (tree : JsValue) : List Delta :=
  match recordFields tree with
  | none => []
  | some fields =>
    let lookup := buildSourceLookup fields
    buildSnapshotDeltas (groupLeavesByMeasurement fields lookup) lookup

/-- A delta of one update with values and without metadata. -/
def Delta.Single (d : Delta) : Prop :=
  ∃ u : DeltaUpdate, d.updates = [u] ∧ u.values ≠ [] ∧ u.metaEntries = none

/-- The deltas of a snapshot are such deltas. -/
theorem single_of_mem_snapshot {tree : JsValue} {d : Delta} (h : d ∈ collectValuesSnapshot tree) :
    d.Single := by
  rw [collectValuesSnapshot] at h
  split at h
  · cases h
  · obtain ⟨entry, hentry, rfl⟩ := List.mem_map.1 h
    exact ⟨_, rfl, by simpa using (List.mem_filter.1 hentry).2, rfl⟩

end EdgeLink
