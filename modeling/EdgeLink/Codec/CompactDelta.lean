import EdgeLink.Codec.JsValue
import Mathlib.Data.List.Forall2

/-!
# Compact deltas

`codec/compact-delta.ts`: deltas as positional arrays, and `decodeDeltas` of
`pipeline/reliable-server/data-handler.ts`, which tells the compact form from the classic one by the
shape of the first element. The transport delivers what MessagePack carries, so a property that is
there without a value arrives as nil.

* `decodeCompactDelta_encodeCompactDelta`: a compact delta is decoded to the object of the delta,
  without an empty meta array and a nil source.
* `readDelta_of_written`: so is a classic one read, whatever else its objects hold.
* `decodeDeltas_of_written`: the receiver reads the same deltas from either form.
-/

namespace EdgeLink

/-- A value that MessagePack carries. -/
inductive MsgpackValue where
  | nil
  | bool (b : Bool)
  | num (n : JsNumber)
  | str (s : String)
  | bin (data : List UInt8)
  | ext (type : ℤ) (data : List UInt8)
  | arr (items : List MsgpackValue)
  | map (fields : List (String × MsgpackValue))

namespace MsgpackValue

/-- The property of an object, if it has one. -/
def get (v : MsgpackValue) (name : String) : Option MsgpackValue :=
  match v with
  | map fields => fields.lookup name
  | _ => none

/-- A property that is there with a value. -/
def present : Option MsgpackValue → Option MsgpackValue
  | none => none
  | some nil => none
  | some v => some v

/-- A text property. -/
def text : Option MsgpackValue → Option String
  | some (str s) => some s
  | _ => none

/-- `Object.values`; of anything but a map they are no deltas. -/
def objectValues : MsgpackValue → List MsgpackValue
  | map fields => fields.map Prod.snd
  | _ => []

end MsgpackValue

open MsgpackValue

/-! ## Deltas on their way -/

/-- A path, or its number in the dictionary. -/
inductive WirePath where
  | name (path : String)
  | id (n : ℚ)

def WirePath.toValue : WirePath → MsgpackValue
  | name path => .str path
  | id n => .num (.finite n)

/-- An entry of `values` or of `meta`. -/
structure WireEntry where
  path : WirePath
  value : MsgpackValue

structure WireUpdate where
  source : Option MsgpackValue := none
  sourceRef : Option String := none
  timestamp : Option String := none
  values : Option (List WireEntry) := none
  metaEntries : Option (List WireEntry) := none

structure WireDelta where
  context : String
  updates : List WireUpdate

inductive WirePayload where
  | single (delta : WireDelta)
  | array (deltas : List WireDelta)
  | record (entries : List (String × WireDelta))

def WirePayload.deltas : WirePayload → List WireDelta
  | single delta => [delta]
  | array deltas => deltas
  | record entries => entries.map Prod.snd

/-! ## Encoding -/

/-- The pairs of an array that may be absent. -/
def encodeEntries (entries : Option (List WireEntry)) : List MsgpackValue :=
  (entries.getD []).map fun e => .arr [e.path.toValue, e.value]

/-- An update as five positions; what is absent is nil. -/
def encodeUpdate (update : WireUpdate) : MsgpackValue :=
  let metaArr := encodeEntries update.metaEntries
  .arr [update.source.getD .nil,
    (update.sourceRef.map .str).getD .nil,
    (update.timestamp.map .str).getD .nil,
    .arr (encodeEntries update.values),
    if 0 < metaArr.length then .arr metaArr else .nil]

def encodeCompactDelta (delta : WireDelta) : MsgpackValue :=
  .arr [.str delta.context, .arr (delta.updates.map encodeUpdate)]

def encodeCompactPayload : WirePayload → MsgpackValue
  | .array deltas => .arr (deltas.map encodeCompactDelta)
  | .single delta => .arr [encodeCompactDelta delta]
  | .record entries => .arr (entries.map fun entry => encodeCompactDelta entry.2)

/-! ## Decoding -/

/-- The entry of a pair; anything else is dropped. -/
def decodeTuple : MsgpackValue → Option MsgpackValue
  | .arr (path :: value :: _) => some (.map [("path", path), ("value", value)])
  | _ => none

/-- `decodeValueTuples` and `decodeMetaTuples` -/
def decodeTuples : MsgpackValue → List MsgpackValue
  | .arr tuples => tuples.filterMap decodeTuple
  | _ => []

/-- A property that is set only if there is a value. -/
def field (name : String) (v : Option MsgpackValue) : List (String × MsgpackValue) :=
  (v.map fun v => (name, v)).toList

def decodeUpdate : MsgpackValue → Option MsgpackValue
  | .arr (source :: sourceRef :: timestamp :: values :: metaTuples :: _) =>
    let metaEntries := decodeTuples metaTuples
    some (.map ([("values", .arr (decodeTuples values))] ++
      field "source" (present (some source)) ++
      field "$source" ((text (some sourceRef)).map .str) ++
      field "timestamp" ((text (some timestamp)).map .str) ++
      field "meta" (if 0 < metaEntries.length then some (.arr metaEntries) else none)))
  | _ => none

def decodeCompactDelta : MsgpackValue → Option MsgpackValue
  | .arr (context :: .arr rawUpdates :: _) =>
    some (.map [("context", .str ((text (some context)).getD "")),
      ("updates", .arr (rawUpdates.filterMap decodeUpdate))])
  | _ => none

/-- The first element is an array whose second element is an array. -/
def isCompactDeltaArray : MsgpackValue → Bool
  | .arr (.arr (_ :: .arr _ :: _) :: _) => true
  | _ => false

def decodeCompactDeltaArray : MsgpackValue → List MsgpackValue
  | .arr items => items.filterMap decodeCompactDelta
  | _ => []

/-- The deltas of a payload, in any form. A content of nil throws. -/
def decodeDeltas (jsonContent : MsgpackValue) : Option (List MsgpackValue) :=
  if isCompactDeltaArray jsonContent then some (decodeCompactDeltaArray jsonContent)
  else
    match jsonContent with
    | .arr items => some items
    | .nil => none
    | _ =>
      match jsonContent.get "updates" with
      | some (.arr _) => some [jsonContent]
      | _ => some jsonContent.objectValues

/-! ## Objects -/

def WireEntry.object (e : WireEntry) : MsgpackValue :=
  .map [("path", e.path.toValue), ("value", e.value)]

/-- The object with the fields of an update that are there. -/
def WireUpdate.object (update : WireUpdate) : MsgpackValue :=
  .map (field "values" (update.values.map fun vs => .arr (vs.map WireEntry.object)) ++
    field "source" update.source ++
    field "$source" (update.sourceRef.map .str) ++
    field "timestamp" (update.timestamp.map .str) ++
    field "meta" (update.metaEntries.map fun ms => .arr (ms.map WireEntry.object)))

def WireDelta.object (delta : WireDelta) : MsgpackValue :=
  .map [("context", .str delta.context), ("updates", .arr (delta.updates.map WireUpdate.object))]

/-- The metadata, unless there is none. -/
def nonEmpty (entries : Option (List WireEntry)) : Option (List WireEntry) :=
  match entries with
  | some (m :: ms) => some (m :: ms)
  | _ => none

/-- An update with its values array, and without an empty meta array and a nil source. -/
def WireUpdate.restored (update : WireUpdate) : WireUpdate :=
  { update with
    source := present update.source
    values := some (update.values.getD [])
    metaEntries := nonEmpty update.metaEntries }

def WireDelta.restored (delta : WireDelta) : WireDelta :=
  { delta with updates := delta.updates.map WireUpdate.restored }

/-! ## The compact form -/

theorem decodeTuples_encodeEntries (entries : Option (List WireEntry)) :
    decodeTuples (.arr (encodeEntries entries)) = (entries.getD []).map WireEntry.object := by
  have htuple : ∀ e : WireEntry,
      decodeTuple (.arr [e.path.toValue, e.value]) = some e.object := fun _ => rfl
  simp only [decodeTuples, encodeEntries, List.filterMap_map, Function.comp_def, htuple,
    List.filterMap_eq_map']

theorem text_getD (s : Option String) : text (some ((s.map .str).getD .nil)) = s := by
  cases s <;> rfl

theorem present_getD (v : Option MsgpackValue) : present (some (v.getD .nil)) = present v := by
  rcases v with _ | v
  · rfl
  · cases v <;> rfl

/-- The metadata of a decoded update. -/
theorem decodeTuples_meta (entries : Option (List WireEntry)) :
    (let decoded := decodeTuples
        (if 0 < (encodeEntries entries).length then .arr (encodeEntries entries) else .nil)
      if 0 < decoded.length then some (.arr decoded) else none) =
      (nonEmpty entries).map fun ms => MsgpackValue.arr (ms.map WireEntry.object) := by
  rcases entries with _ | _ | ⟨m, ms⟩
  · rfl
  · rfl
  · have hlength : 0 < (encodeEntries (some (m :: ms))).length := by simp [encodeEntries]
    simp only [hlength, if_true, decodeTuples_encodeEntries, nonEmpty]
    rfl

theorem decodeUpdate_encodeUpdate (update : WireUpdate) :
    decodeUpdate (encodeUpdate update) = some update.restored.object := by
  have hmeta := decodeTuples_meta update.metaEntries
  dsimp only at hmeta
  simp only [encodeUpdate, decodeUpdate, hmeta, text_getD, present_getD,
    decodeTuples_encodeEntries, WireUpdate.object, WireUpdate.restored, Option.map_some]
  rfl

theorem decodeCompactDelta_encodeCompactDelta (delta : WireDelta) :
    decodeCompactDelta (encodeCompactDelta delta) = some delta.restored.object := by
  simp only [encodeCompactDelta, decodeCompactDelta, List.filterMap_map, Function.comp_def,
    decodeUpdate_encodeUpdate, List.filterMap_eq_map', WireDelta.object, WireDelta.restored,
    List.map_map]
  rfl

/-- The compact form of a payload lists its deltas. -/
theorem encodeCompactPayload_eq (p : WirePayload) :
    encodeCompactPayload p = .arr (p.deltas.map encodeCompactDelta) := by
  cases p with
  | single delta => rfl
  | array deltas => rfl
  | record entries => simp [encodeCompactPayload, WirePayload.deltas]

theorem decodeCompactDeltaArray_encodeCompactPayload (p : WirePayload) :
    decodeCompactDeltaArray (encodeCompactPayload p) =
      p.deltas.map fun delta => delta.restored.object := by
  simp only [encodeCompactPayload_eq, decodeCompactDeltaArray, List.filterMap_map,
    Function.comp_def, decodeCompactDelta_encodeCompactDelta, List.filterMap_eq_map']

theorem isCompactDeltaArray_encodeCompactPayload {p : WirePayload} (h : p.deltas ≠ []) :
    isCompactDeltaArray (encodeCompactPayload p) = true := by
  rw [encodeCompactPayload_eq]
  obtain ⟨delta, deltas, heq⟩ := List.exists_cons_of_ne_nil h
  rw [heq]
  rfl

/-! ## The classic form -/

/-- What a receiver reads of an entry. -/
def readEntry (raw : MsgpackValue) : Option WireEntry :=
  match raw.get "path", raw.get "value" with
  | some (.str path), some value => some ⟨.name path, value⟩
  | some (.num (.finite n)), some value => some ⟨.id n, value⟩
  | _, _ => none

def readEntries : Option MsgpackValue → List WireEntry
  | some (.arr items) => items.filterMap readEntry
  | _ => []

/-- What a receiver reads of an update: a property without a value, and an array of metadata
without an entry, is as good as absent. -/
def readUpdate (raw : MsgpackValue) : WireUpdate where
  source := present (raw.get "source")
  sourceRef := text (raw.get "$source")
  timestamp := text (raw.get "timestamp")
  values := some (readEntries (raw.get "values"))
  metaEntries := nonEmpty (some (readEntries (raw.get "meta")))

def readDelta (raw : MsgpackValue) : WireDelta where
  context := (text (raw.get "context")).getD ""
  updates :=
    match raw.get "updates" with
    | some (.arr items) => items.map readUpdate
    | _ => []

/-- A property is written as it is; an absent one is left out or nil. -/
def Written (v raw : Option MsgpackValue) : Prop := raw = v ∨ (v = none ∧ raw = some .nil)

def EntryWritten (e : WireEntry) (raw : MsgpackValue) : Prop :=
  raw.get "path" = some e.path.toValue ∧ raw.get "value" = some e.value

/-- An array of entries that may be absent. -/
def EntriesWritten (entries : Option (List WireEntry)) (raw : Option MsgpackValue) : Prop :=
  match entries with
  | none => raw = none ∨ raw = some .nil
  | some es => ∃ items, raw = some (.arr items) ∧ List.Forall₂ EntryWritten es items

/-- An object has the properties of an update, in any order and among any others. -/
structure UpdateWritten (update : WireUpdate) (raw : MsgpackValue) : Prop where
  source : Written update.source (raw.get "source")
  sourceRef : Written (update.sourceRef.map .str) (raw.get "$source")
  timestamp : Written (update.timestamp.map .str) (raw.get "timestamp")
  values : EntriesWritten update.values (raw.get "values")
  metaEntries : EntriesWritten update.metaEntries (raw.get "meta")

structure DeltaWritten (delta : WireDelta) (raw : MsgpackValue) : Prop where
  context : raw.get "context" = some (.str delta.context)
  updates : ∃ items, raw.get "updates" = some (.arr items) ∧
    List.Forall₂ UpdateWritten delta.updates items

/-- The classic form of a payload. -/
def PayloadWritten : WirePayload → MsgpackValue → Prop
  | .single delta, raw => DeltaWritten delta raw
  | .array deltas, raw => ∃ items, raw = .arr items ∧ List.Forall₂ DeltaWritten deltas items
  | .record entries, raw => ∃ fields, raw = .map fields ∧
      List.Forall₂ (fun e f => f.1 = e.1 ∧ DeltaWritten e.2 f.2) entries fields

section Classic

variable {raw : MsgpackValue}

theorem readEntry_of_written {e : WireEntry} (h : EntryWritten e raw) : readEntry raw = some e := by
  rw [readEntry, h.1, h.2]
  rcases e with ⟨_ | _, value⟩ <;> rfl

theorem filterMap_readEntry {es : List WireEntry} {items : List MsgpackValue}
    (h : List.Forall₂ EntryWritten es items) : items.filterMap readEntry = es := by
  induction h with
  | nil => rfl
  | cons he _ ih => rw [List.filterMap_cons, readEntry_of_written he, ih]

theorem readEntries_of_written {entries : Option (List WireEntry)} {raw : Option MsgpackValue}
    (h : EntriesWritten entries raw) : readEntries raw = entries.getD [] := by
  rcases entries with _ | es
  · rcases h with rfl | rfl <;> rfl
  · obtain ⟨items, rfl, hitems⟩ := h
    exact filterMap_readEntry hitems

theorem present_of_written {v raw : Option MsgpackValue} (h : Written v raw) :
    present raw = present v := by
  rcases h with rfl | ⟨rfl, rfl⟩ <;> rfl

theorem text_of_written {s : Option String} {raw : Option MsgpackValue}
    (h : Written (s.map .str) raw) : text raw = s := by
  rcases h with rfl | ⟨hs, rfl⟩
  · cases s <;> rfl
  · cases s
    · rfl
    · nomatch hs

theorem nonEmpty_getD (entries : Option (List WireEntry)) :
    nonEmpty (some (entries.getD [])) = nonEmpty entries := by
  rcases entries with _ | _ | _ <;> rfl

theorem readUpdate_of_written {update : WireUpdate} (h : UpdateWritten update raw) :
    readUpdate raw = update.restored := by
  simp only [readUpdate, WireUpdate.restored, present_of_written h.source,
    text_of_written h.sourceRef, text_of_written h.timestamp, readEntries_of_written h.values,
    readEntries_of_written h.metaEntries, nonEmpty_getD]

/-- A classic delta is read as the delta it was written from. -/
theorem readDelta_of_written {delta : WireDelta} (h : DeltaWritten delta raw) :
    readDelta raw = delta.restored := by
  obtain ⟨items, hupdates, hitems⟩ := h.updates
  have hread : items.map readUpdate = delta.updates.map WireUpdate.restored := by
    clear hupdates
    generalize delta.updates = updates at hitems
    induction hitems with
    | nil => rfl
    | cons hu _ ih => rw [List.map_cons, List.map_cons, readUpdate_of_written hu, ih]
  simp only [readDelta, WireDelta.restored, h.context, hupdates, hread, text, Option.getD_some]

end Classic

/-! ## Either form -/

theorem lookup_field (name : String) (v : Option MsgpackValue) (key : String) :
    (field name v).lookup key = if key = name then v else none := by
  cases v with
  | none => simp [field]
  | some v =>
    simp only [field, Option.map_some, Option.toList_some, List.lookup_cons, List.lookup_nil]
    split
    next h => rw [if_pos (eq_of_beq h)]
    next h => rw [if_neg fun heq => by simp [heq] at h]

/-- The object of an update is a way to write it. -/
theorem updateWritten_object (update : WireUpdate) : UpdateWritten update update.object := by
  have hentries : ∀ es : List WireEntry,
      List.Forall₂ EntryWritten es (es.map WireEntry.object) := by
    intro es
    induction es with
    | nil => exact .nil
    | cons e es ih => exact .cons ⟨rfl, rfl⟩ ih
  have hwritten : ∀ entries : Option (List WireEntry), EntriesWritten entries
      (entries.map fun es => .arr (es.map WireEntry.object)) := by
    rintro (_ | es)
    · exact Or.inl rfl
    · exact ⟨_, rfl, hentries es⟩
  have hget : ∀ key, update.object.get key =
      ((((if key = "values" then
            update.values.map fun vs => MsgpackValue.arr (vs.map WireEntry.object) else none).or
          (if key = "source" then update.source else none)).or
          (if key = "$source" then update.sourceRef.map MsgpackValue.str else none)).or
          (if key = "timestamp" then update.timestamp.map MsgpackValue.str else none)).or
          (if key = "meta" then
            update.metaEntries.map fun ms => MsgpackValue.arr (ms.map WireEntry.object)
            else none) := by
    intro key
    simp only [WireUpdate.object, MsgpackValue.get, List.lookup_append, lookup_field]
  constructor
  · exact Or.inl (by simp [hget])
  · exact Or.inl (by simp [hget])
  · exact Or.inl (by simp [hget])
  · simpa [hget] using hwritten update.values
  · simpa [hget] using hwritten update.metaEntries

theorem deltaWritten_object (delta : WireDelta) : DeltaWritten delta delta.object := by
  refine ⟨rfl, _, rfl, ?_⟩
  generalize delta.updates = updates
  induction updates with
  | nil => exact .nil
  | cons u updates ih => exact .cons (updateWritten_object u) ih

@[simp] theorem restored_restored (delta : WireDelta) :
    delta.restored.restored = delta.restored := by
  have hupdate : ∀ u : WireUpdate, u.restored.restored = u.restored := by
    intro u
    have hsource : present (present u.source) = present u.source := by
      rcases u.source with _ | v
      · rfl
      · cases v <;> rfl
    have hmeta : nonEmpty (nonEmpty u.metaEntries) = nonEmpty u.metaEntries := by
      rcases u.metaEntries with _ | _ | _ <;> rfl
    simp only [WireUpdate.restored, hsource, hmeta, Option.getD_some]
  simp only [WireDelta.restored, List.map_map, Function.comp_def, hupdate]

theorem readDelta_object (delta : WireDelta) : readDelta delta.restored.object = delta.restored := by
  rw [readDelta_of_written (deltaWritten_object _), restored_restored]

theorem isMap_of_written {delta : WireDelta} {raw : MsgpackValue} (h : DeltaWritten delta raw) :
    ∃ fields, raw = .map fields := by
  have hcontext := h.context
  cases raw with
  | map fields => exact ⟨fields, rfl⟩
  | _ => nomatch hcontext

/-- No classic form passes for a compact one. -/
theorem isCompactDeltaArray_of_written {p : WirePayload} {raw : MsgpackValue}
    (h : PayloadWritten p raw) : isCompactDeltaArray raw = false := by
  cases p with
  | single delta =>
    obtain ⟨fields, rfl⟩ := isMap_of_written h
    rfl
  | array deltas =>
    obtain ⟨items, rfl, hitems⟩ := h
    cases hitems with
    | nil => rfl
    | cons hd _ =>
      obtain ⟨fields, rfl⟩ := isMap_of_written hd
      rfl
  | record entries =>
    obtain ⟨fields, rfl, -⟩ := h
    rfl

theorem map_readDelta {deltas : List WireDelta} {items : List MsgpackValue}
    (h : List.Forall₂ DeltaWritten deltas items) :
    items.map readDelta = deltas.map WireDelta.restored := by
  induction h with
  | nil => rfl
  | cons hd _ ih => rw [List.map_cons, List.map_cons, readDelta_of_written hd, ih]

/-- In a record of deltas, no property is an array. -/
theorem get_record {entries : List (String × WireDelta)} {fields : List (String × MsgpackValue)}
    (h : List.Forall₂ (fun e f => f.1 = e.1 ∧ DeltaWritten e.2 f.2) entries fields) (key : String)
    (items : List MsgpackValue) : (MsgpackValue.map fields).get key ≠ some (.arr items) := by
  rw [MsgpackValue.get]
  induction h with
  | nil => nofun
  | @cons e f entries fields hd _ ih =>
    obtain ⟨name, raw⟩ := f
    obtain ⟨fields', rfl⟩ := isMap_of_written hd.2
    rw [List.lookup_cons]
    split
    · nofun
    · exact ih

/-- From the classic form the receiver reads the deltas of the payload. -/
theorem decodeDeltas_of_written {p : WirePayload} {raw : MsgpackValue} (h : PayloadWritten p raw) :
    (decodeDeltas raw).map (·.map readDelta) = some (p.deltas.map WireDelta.restored) := by
  have hclassic := isCompactDeltaArray_of_written h
  unfold decodeDeltas
  cases p with
  | single delta =>
    obtain ⟨fields, rfl⟩ := isMap_of_written h
    obtain ⟨items, hupdates, -⟩ := h.updates
    simp only [hclassic, hupdates, Bool.false_eq_true, if_false, Option.map_some, List.map_cons,
      List.map_nil, readDelta_of_written h, WirePayload.deltas]
  | array deltas =>
    obtain ⟨items, rfl, hitems⟩ := h
    simp only [hclassic, Bool.false_eq_true, if_false, Option.map_some, map_readDelta hitems,
      WirePayload.deltas]
  | record entries =>
    obtain ⟨fields, rfl, hfields⟩ := h
    have hitems : List.Forall₂ DeltaWritten (entries.map Prod.snd) (fields.map Prod.snd) := by
      rw [List.forall₂_map_left_iff, List.forall₂_map_right_iff]
      exact hfields.imp fun _ _ hd => hd.2
    simp only [hclassic, Bool.false_eq_true, if_false]
    split
    next items hget => exact absurd hget (get_record hfields "updates" items)
    next => rw [objectValues, Option.map_some, map_readDelta hitems, WirePayload.deltas]

/-- **Either form.** A compact payload is decoded to the objects of its deltas; a compact payload
passes for compact, a classic one does not; and the receiver reads the same deltas from either. -/
theorem compact_roundTrip {p : WirePayload} (hne : p.deltas ≠ []) {raw : MsgpackValue}
    (hraw : PayloadWritten p raw) :
    decodeCompactDeltaArray (encodeCompactPayload p) =
        p.deltas.map (fun delta => delta.restored.object) ∧
      isCompactDeltaArray (encodeCompactPayload p) = true ∧ isCompactDeltaArray raw = false ∧
      (decodeDeltas (encodeCompactPayload p)).map (·.map readDelta) =
        some (p.deltas.map WireDelta.restored) ∧
      (decodeDeltas raw).map (·.map readDelta) = some (p.deltas.map WireDelta.restored) := by
  have hcompact := isCompactDeltaArray_encodeCompactPayload hne
  refine ⟨decodeCompactDeltaArray_encodeCompactPayload p, hcompact,
    isCompactDeltaArray_of_written hraw, ?_, decodeDeltas_of_written hraw⟩
  unfold decodeDeltas
  rw [if_pos hcompact, decodeCompactDeltaArray_encodeCompactPayload, Option.map_some, List.map_map]
  simp only [Function.comp_def, readDelta_object]

/-- A delta with one value, and an array of metadata without an entry. -/
def emptyMetaDelta : WireDelta where
  context := "vessels.self"
  updates := [{
    sourceRef := some "n2k.7"
    values := some [⟨.id 0x0107, .num (.finite 3)⟩]
    metaEntries := some [] }]

theorem compact_roundTrip_emptyMeta :
    (decodeDeltas (encodeCompactPayload (.array [emptyMetaDelta, emptyMetaDelta]))).map
        (·.map readDelta) =
      (decodeDeltas (.arr [emptyMetaDelta.object, emptyMetaDelta.object])).map (·.map readDelta) := by
  have hwritten : PayloadWritten (.array [emptyMetaDelta, emptyMetaDelta])
      (.arr [emptyMetaDelta.object, emptyMetaDelta.object]) :=
    ⟨_, rfl, .cons (deltaWritten_object _) (.cons (deltaWritten_object _) .nil)⟩
  have hne : (WirePayload.array [emptyMetaDelta, emptyMetaDelta]).deltas ≠ [] :=
    List.cons_ne_nil _ _
  obtain ⟨-, -, -, hcompact, hclassic⟩ := compact_roundTrip hne hwritten
  exact hcompact.trans hclassic.symm

/-- An array of metadata without an entry is not encoded, and does not come back. -/
theorem emptyMeta_lost :
    decodeCompactDeltaArray (encodeCompactPayload (.single emptyMetaDelta)) ≠
        [emptyMetaDelta.object] ∧
      decodeDeltas emptyMetaDelta.object = some [emptyMetaDelta.object] := by
  refine ⟨fun h => ?_, rfl⟩
  rw [decodeCompactDeltaArray_encodeCompactPayload] at h
  simp [WirePayload.deltas, emptyMetaDelta, WireDelta.object, WireDelta.restored, WireUpdate.object,
    WireUpdate.restored, nonEmpty, field, present] at h

end EdgeLink
