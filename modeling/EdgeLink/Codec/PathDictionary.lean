import EdgeLink.Codec.Delta
import EdgeLink.Codec.JsTree
import EdgeLink.Codec.PathDictionaryData
import EdgeLink.Foundations.Lists
import Mathlib.Data.List.Nodup

/-!
# The path dictionary

`codec/path-dictionary.ts`: known paths travel as numbers, and `transformDelta` walks a delta to
replace its paths. The tables are plain objects, so a path is looked up among the members of
`Object.prototype`, too, once it is not in the table; these are functions and an object, which
`PathSlot.member` stands for.

* `find_idToPath`: the numbers are distinct, so each leads back to its path.
* `decodePath_encodePath_eq_iff`: a path survives exactly when it is no name of a member of
  `Object.prototype`.
* `pathDictionary_roundTrip_iff`: a delta survives exactly when none of its paths is such a name.
-/

namespace EdgeLink

/-- What stands in the `path` property of a delta entry along the codec. -/
inductive PathSlot where
  | undefined
  | text (path : String)
  | num (id : ℚ)
  /-- the member of `Object.prototype` with that name -/
  | member (name : String)
  deriving DecidableEq

/-- The table for decoding; of entries with one number the last one counts. -/
def ID_TO_PATH : List (ℕ × String) := (PATH_TO_ID.map Prod.swap).reverse

/-- The number of a path, if it has one. What the table does not own, it inherits. -/
def encodePath (path : String) : PathSlot :=
  match PATH_TO_ID.lookup path with
  | some id => .num id
  | none => if path ∈ objectPrototypeMembers then .member path else .text path

/-- The path of a number. No member of `Object.prototype` has a number for a name. -/
def decodePath (slot : PathSlot) : PathSlot :=
  match slot with
  | .num id =>
    match ID_TO_PATH.find? fun entry => (entry.1 : ℚ) = id with
    | some entry => .text entry.2
    | none => slot
  | _ => slot

structure SlotValue where
  path : PathSlot
  value : JsValue
  deriving DecidableEq

structure SlotUpdate where
  source : JsValue
  timestamp : Option String
  sourceRef : Option String
  metaEntries : Option (List DeltaMeta)
  values : List SlotValue
  deriving DecidableEq

/-- A delta along the codec. -/
structure SlotDelta where
  context : Option String
  updates : List SlotUpdate
  deriving DecidableEq

/-- `source ?? {}` -/
def sourceOrEmpty (source : JsValue) : JsValue :=
  match source with
  | .undefined => .obj []
  | .null => .obj []
  | source => source

/-- Replace the path of an entry by `pathTransform`, where `shouldTransform` says so. -/
def transformValue (pathTransform : PathSlot → PathSlot) (shouldTransform : PathSlot → Bool)
    (v : SlotValue) : SlotValue :=
  if shouldTransform v.path then { v with path := pathTransform v.path } else v

/-- Replace the paths of a delta. -/
def transformDelta (delta : SlotDelta) (pathTransform : PathSlot → PathSlot)
    (shouldTransform : PathSlot → Bool) : SlotDelta where
  context := delta.context
  updates := delta.updates.map fun update =>
    { update with
      source := sourceOrEmpty update.source
      values := update.values.map (transformValue pathTransform shouldTransform) }

/-- `!!path`: neither undefined, nor empty, nor zero. -/
def PathSlot.truthy : PathSlot → Bool
  | .undefined => false
  | .text path => path ≠ ""
  | .num id => id ≠ 0
  | .member _ => true

/-- `encodePath` of what a path property holds; nothing but a text can be in the table. -/
def encodeSlot : PathSlot → PathSlot
  | .text path => encodePath path
  | slot => slot

def encodeDelta (delta : SlotDelta) : SlotDelta := transformDelta delta encodeSlot PathSlot.truthy

/-- `path !== undefined` -/
def PathSlot.defined (slot : PathSlot) : Bool := slot ≠ .undefined

def decodeDelta (delta : SlotDelta) : SlotDelta :=
  transformDelta delta decodePath PathSlot.defined

/-- A delta as the codec takes it. -/
def Delta.slots (delta : Delta) : SlotDelta where
  context := delta.context
  updates := delta.updates.map fun update =>
    { source := update.source
      timestamp := update.timestamp
      sourceRef := update.sourceRef
      metaEntries := update.metaEntries
      values := update.values.map fun v => ⟨.text v.path, v.value⟩ }

/-- A delta in which every absent source is an empty object. -/
def Delta.withSources (delta : Delta) : Delta :=
  { delta with updates := delta.updates.map fun update =>
      { update with source := sourceOrEmpty update.source } }

/-! ## Paths -/

/-- The numbers of the dictionary are distinct. -/
theorem nodup_ids : (PATH_TO_ID.map Prod.snd).Nodup := by decide +kernel

/-- Every number leads back to its path. -/
theorem find_idToPath {path : String} {id : ℕ} (h : PATH_TO_ID.lookup path = some id) :
    ID_TO_PATH.find? (fun entry => (entry.1 : ℚ) = id) = some (id, path) := by
  have hmem : (id, path) ∈ ID_TO_PATH :=
    List.mem_reverse.2 (List.mem_map.2 ⟨(path, id), mem_of_lookup h, rfl⟩)
  rcases hfind : ID_TO_PATH.find? (fun entry => (entry.1 : ℚ) = id) with _ | ⟨id', path'⟩
  · have hnone := List.find?_eq_none.1 hfind (id, path) hmem
    simp at hnone
  · have hid : (id' : ℚ) = id := by simpa using List.find?_some hfind
    have hid : id' = id := by exact_mod_cast hid
    have hmem' := List.mem_of_find?_eq_some hfind
    rw [ID_TO_PATH, List.mem_reverse, List.mem_map] at hmem'
    obtain ⟨⟨path'', id''⟩, hmem', heq⟩ := hmem'
    obtain ⟨rfl, rfl⟩ := Prod.mk.inj heq
    subst hid
    have hentry := List.inj_on_of_nodup_map nodup_ids hmem' (mem_of_lookup h) rfl
    obtain rfl : path'' = path := (Prod.mk.inj hentry).1
    exact hfind

/-- What an encoded path is decoded to. -/
theorem decodePath_encodePath (path : String) : decodePath (encodePath path) =
    if PATH_TO_ID.lookup path = none ∧ path ∈ objectPrototypeMembers then .member path
    else .text path := by
  unfold encodePath
  cases hlookup : PATH_TO_ID.lookup path with
  | some id =>
    have hfind := find_idToPath hlookup
    simp only [decodePath, hfind, reduceCtorEq, false_and, if_false]
  | none =>
    by_cases hmember : path ∈ objectPrototypeMembers
    · simp [decodePath, hmember]
    · simp [decodePath, hmember]

/-- No path of the dictionary is a member's name. -/
theorem lookup_member : ∀ name ∈ objectPrototypeMembers, PATH_TO_ID.lookup name = none := by
  decide +kernel

theorem decodePath_encodePath_eq_iff (path : String) :
    decodePath (encodePath path) = .text path ↔ path ∉ objectPrototypeMembers := by
  rw [decodePath_encodePath]
  constructor
  · intro h hmem
    rw [if_pos ⟨lookup_member path hmem, hmem⟩] at h
    nomatch h
  · intro hmem
    rw [if_neg fun h => hmem h.2]

/-- A path is encoded as a number or as itself, unless it is the name of a member. -/
theorem encodePath_cases {path : String} (h : path ∉ objectPrototypeMembers) :
    (∃ id, encodePath path = .num id) ∨ encodePath path = .text path := by
  unfold encodePath
  cases PATH_TO_ID.lookup path with
  | some id => exact Or.inl ⟨id, rfl⟩
  | none => exact Or.inr (if_neg h)

/-! ## Deltas -/

@[simp] theorem sourceOrEmpty_sourceOrEmpty (source : JsValue) :
    sourceOrEmpty (sourceOrEmpty source) = sourceOrEmpty source := by
  cases source <;> rfl

theorem encodePath_defined (path : String) : (encodePath path).defined = true := by
  unfold encodePath
  split
  · rfl
  · split_ifs <;> rfl

/-- What the two walks make of an entry: the one leaves out an empty path that the other takes, but
that is neither in the dictionary nor a member's name. -/
theorem transformValue_transformValue (path : String) (value : JsValue) :
    transformValue decodePath PathSlot.defined
        (transformValue encodeSlot PathSlot.truthy ⟨.text path, value⟩) =
      ⟨decodePath (encodePath path), value⟩ := by
  by_cases hempty : path = ""
  · subst hempty
    have hmember : "" ∉ objectPrototypeMembers := by decide +kernel
    rw [decodePath_encodePath, if_neg fun h => hmember h.2]
    simp [transformValue, PathSlot.truthy, PathSlot.defined, decodePath]
  · have htruthy : (PathSlot.text path).truthy = true := by simp [PathSlot.truthy, hempty]
    simp only [transformValue, htruthy, encodeSlot, encodePath_defined, if_true]

/-- The two walks over a delta. -/
theorem decodeDelta_encodeDelta (delta : Delta) :
    decodeDelta (encodeDelta delta.slots) =
      { delta.withSources.slots with
        updates := delta.updates.map fun update =>
          { source := sourceOrEmpty update.source
            timestamp := update.timestamp
            sourceRef := update.sourceRef
            metaEntries := update.metaEntries
            values := update.values.map fun v => ⟨decodePath (encodePath v.path), v.value⟩ } } := by
  simp only [decodeDelta, encodeDelta, transformDelta, Delta.slots, Delta.withSources, List.map_map,
    Function.comp_def, sourceOrEmpty_sourceOrEmpty, transformValue_transformValue]

/-- **When the dictionary loses nothing.** A path is encoded as a number or as itself and decoded to
itself exactly when it is not the name of a member of `Object.prototype`; and a delta comes back
with its paths and values, its context, its timestamps, `$source`s and metadata, and an empty object
for an absent source, exactly when none of its paths is such a name. -/
theorem pathDictionary_roundTrip_iff (path : String) (delta : Delta) :
    ((decodePath (encodePath path) = .text path ∧
        ((∃ id, encodePath path = .num id) ∨ encodePath path = .text path)) ↔
      path ∉ objectPrototypeMembers) ∧
    (decodeDelta (encodeDelta delta.slots) = delta.withSources.slots ↔
      ∀ update ∈ delta.updates, ∀ v ∈ update.values, v.path ∉ objectPrototypeMembers) := by
  constructor
  · rw [decodePath_encodePath_eq_iff]
    exact ⟨fun h => h.1, fun h => ⟨h, encodePath_cases h⟩⟩
  · rw [decodeDelta_encodeDelta]
    simp only [Delta.slots, Delta.withSources, SlotDelta.mk.injEq, true_and, List.map_map,
      Function.comp_def, List.map_inj_left, SlotUpdate.mk.injEq, SlotValue.mk.injEq, and_true,
      decodePath_encodePath_eq_iff]

/-- **The defect.** The path `constructor` is encoded as a function, which is decoded to itself. -/
theorem encodePath_constructor :
    isValidValuePath "constructor" = true ∧ encodePath "constructor" = .member "constructor" ∧
      decodePath (encodePath "constructor") ≠ .text "constructor" := by
  decide +kernel

end EdgeLink
