import EdgeLink.Codec.Delta
import EdgeLink.Foundations.LazyCopy

/-!
# The sanitiser on objects

`sanitizeUpdateForSignalK`, `sanitizeDeltaForSignalK` and `sanitizeDeltaPayloadForSignalK` of
`codec/delta-sanitizer.ts`, on values of any shape and with the identity of objects: each of them
copies an array or an object only from the first change on, and passes on by reference what does
not change.

* `filterUpdate`, `filterDelta`, `filterPayload`: the plain filter, on trees.
* `Denotes`: the tree that a value of the store stands for.
* `lazy_sanitize`: the sanitisers compute the plain filter, change no object that exists, and return
  what they have made of a value as it is when they are applied to it.
* `filterDelta_encodeDelta`: on typed deltas the plain filter is the sanitiser of
  `EdgeLink.Codec.Delta`.
-/

namespace EdgeLink

deriving instance DecidableEq for Cell

namespace LazySanitize

open LazyCopy

/-- A value that is no object. -/
inductive JsPrimitive where
  | undefined
  | null
  | bool (b : Bool)
  | num (n : JsNumber)
  | str (s : String)
  deriving DecidableEq

def JsPrimitive.toValue : JsPrimitive → JsValue
  | undefined => .undefined
  | null => .null
  | bool b => .bool b
  | num n => .num n
  | str s => .str s

/-- What a variable holds. -/
abbrev JsCell := Cell ℕ JsPrimitive

abbrev JsStore := Store String JsPrimitive

abbrev JsView := View String JsPrimitive

/-! ## The code -/

/-- A property, `undefined` for one that is missing and for what has no properties. -/
def getField (s : JsStore) (c : JsCell) (name : String) : JsCell :=
  match c with
  | .object a =>
    match s[a]? with
    | some (.record fields) => (fields.lookup name).getD (.value .undefined)
    | _ => .value .undefined
  | .value _ => .value .undefined

/-- The own properties of an object. -/
def fieldsOf (s : JsStore) (c : JsCell) : Option (List (String × JsCell)) :=
  match c with
  | .object a =>
    match s[a]? with
    | some (.record fields) => some fields
    | _ => none
  | .value _ => none

def isObject (s : JsStore) (c : JsCell) : Bool := (fieldsOf s c).isSome

def isDeltaLike (s : JsStore) (c : JsCell) : Bool :=
  isObject s c && (s.arrayItems (getField s c "updates")).isSome

/-- A path that is a text with something in it. -/
def isValidPath : JsCell → Bool
  | .value (.str path) => isValidValuePath path
  | _ => false

/-- `{ ...c, [name]: v }` -/
def spreadWith (s : JsStore) (c : JsCell) (name : String) (v : JsCell) : JsStore × JsCell :=
  (s ++ [.record (setField ((fieldsOf s c).getD []) name v)], .object s.length)

/-- One entry of the values of an update. -/
def sanitizeValue (s : JsStore) (rawValue : JsCell) : JsStore × Outcome JsPrimitive :=
  if isObject s rawValue ∧ isValidPath (getField s rawValue "path") then (s, .keep) else (s, .drop)

/-- `values ?? []`: the copy of the values, or a new array. -/
def filteredValues (loop : CopyLoop String JsPrimitive) : JsStore × ℕ :=
  match loop.copy with
  | some a => (loop.store, a)
  | none => (loop.store ++ [.array []], loop.store.length)

def sanitizeUpdateForSignalK (s : JsStore) (rawUpdate : JsCell) :
    JsStore × Outcome JsPrimitive :=
  if isObject s rawUpdate = false then (s, .drop)
  else
    let values := s.arrayItems (getField s rawUpdate "values")
    let loop := copyOnChange sanitizeValue s (values.getD [])
    let updateChanged := values.isNone || loop.copy.isSome
    let hasMeta := (s.arrayItems (getField s rawUpdate "meta")).getD [] ≠ []
    if loop.kept = 0 ∧ ¬hasMeta then (loop.store, .drop)
    else if updateChanged = false then (loop.store, .keep)
    else
      let filtered := filteredValues loop
      let replaced := spreadWith filtered.1 rawUpdate "values" (.object filtered.2)
      (replaced.1, .replace replaced.2)

/-- The result is `null` when nothing is left. -/
def sanitizeDeltaForSignalK (s : JsStore) (delta : JsCell) : JsStore × JsCell :=
  match s.arrayItems (getField s delta "updates") with
  | none => (s, .value .null)
  | some rawUpdates =>
    let loop := copyOnChange sanitizeUpdateForSignalK s rawUpdates
    if loop.kept = 0 then (loop.store, .value .null)
    else
      match loop.copy with
      | none => (loop.store, delta)
      | some a => spreadWith loop.store delta "updates" (.object a)

/-- One delta of a batch: an object is compared by its identity. -/
def sanitizeItem (s : JsStore) (delta : JsCell) : JsStore × Outcome JsPrimitive :=
  let item := sanitizeDeltaForSignalK s delta
  (item.1,
    if item.2 = .value .null then .drop else if item.2 = delta then .keep else .replace item.2)

/-- The entries of a record of deltas. -/
def sanitizeEntries (s : JsStore) : List (String × JsCell) → JsStore × List (String × JsCell)
  | [] => (s, [])
  | (key, value) :: rest =>
    let sanitized := sanitizeDeltaForSignalK s value
    let entries := sanitizeEntries sanitized.1 rest
    (entries.1,
      if sanitized.2 = .value .null then entries.2 else (key, sanitized.2) :: entries.2)

/-- `none` where `Object.entries` throws. -/
def sanitizeDeltaPayloadForSignalK (s : JsStore) (delta : JsCell) : Option (JsStore × JsCell) :=
  match s.arrayItems delta with
  | some items =>
    let loop := copyOnChange sanitizeItem s items
    some (loop.store,
      if loop.kept = 0 then .value .null
      else match loop.copy with
        | none => delta
        | some a => .object a)
  | none =>
    if isDeltaLike s delta then some (sanitizeDeltaForSignalK s delta)
    else if delta = .value .null ∨ delta = .value .undefined then none
    else
      -- the entries of a text are texts, and other primitives have none
      let sanitized := sanitizeEntries s ((fieldsOf s delta).getD [])
      if sanitized.2 = [] then some (sanitized.1, .value .null)
      else some (sanitized.1 ++ [.record sanitized.2], .object sanitized.1.length)

/-! ## The plain filter -/

def isPlainObject : JsValue → Bool
  | .obj _ => true
  | _ => false

/-- The items of an array. -/
def itemsOf : JsValue → Option (List JsValue)
  | .arr items => some items
  | _ => none

/-- An object with one property written. -/
def withField : JsValue → String → JsValue → JsValue
  | .obj fields, name, v => .obj (setField fields name v)
  | v, _, _ => v

/-- The path predicate. -/
def hasText : JsValue → Bool
  | .str path => isValidValuePath path
  | _ => false

def isValidEntry (entry : JsValue) : Bool := isPlainObject entry && hasText (entry.get "path")

/-- Keep the valid entries; a missing list of values is empty. -/
def filterUpdate (update : JsValue) : Option JsValue :=
  let values := ((itemsOf (update.get "values")).getD []).filter isValidEntry
  let hasMeta := (itemsOf (update.get "meta")).getD [] ≠ []
  if isPlainObject update = false ∨ (values = [] ∧ ¬hasMeta) then none
  else some (withField update "values" (.arr values))

def filterDelta (delta : JsValue) : Option JsValue :=
  let updates := ((itemsOf (delta.get "updates")).getD []).filterMap filterUpdate
  if updates = [] then none else some (withField delta "updates" (.arr updates))

def filterPayload : JsValue → Option JsValue
  | .arr deltas =>
    let kept := deltas.filterMap filterDelta
    if kept = [] then none else some (.arr kept)
  | .obj fields =>
    if (itemsOf ((JsValue.obj fields).get "updates")).isSome then filterDelta (.obj fields)
    else
      let kept := fields.filterMap fun e => (filterDelta e.2).map (e.1, ·)
      if kept = [] then none else some (.obj kept)
  | _ => none

/-! ## What a value stands for -/

mutual

/-- A value of the store stands for a tree. -/
def Denotes (v : JsView) : JsValue → JsCell → Prop
  | .arr items, c => ∃ a cells, c = .object a ∧ v a = some (.array cells) ∧
      DenotesItems v items cells
  | .obj fields, c => ∃ a cells, c = .object a ∧ v a = some (.record cells) ∧
      DenotesFields v fields cells
  | .undefined, c => c = .value .undefined
  | .null, c => c = .value .null
  | .bool b, c => c = .value (.bool b)
  | .num n, c => c = .value (.num n)
  | .str s, c => c = .value (.str s)

def DenotesItems (v : JsView) : List JsValue → List JsCell → Prop
  | [], cells => cells = []
  | item :: rest, cells => ∃ c cells', cells = c :: cells' ∧ Denotes v item c ∧
      DenotesItems v rest cells'

def DenotesFields (v : JsView) : List (String × JsValue) → List (String × JsCell) → Prop
  | [], cells => cells = []
  | (key, value) :: rest, cells => ∃ c cells', cells = (key, c) :: cells' ∧ Denotes v value c ∧
      DenotesFields v rest cells'

end

theorem denotesItems_iff {v : JsView} {items : List JsValue} {cells : List JsCell} :
    DenotesItems v items cells ↔ List.Forall₂ (Denotes v) items cells := by
  induction items generalizing cells with
  | nil => simp [DenotesItems]
  | cons item rest ih =>
    simp only [DenotesItems, ih, List.forall₂_cons_left_iff]
    constructor
    · rintro ⟨c, cells', rfl, hc, hrest⟩
      exact ⟨c, cells', hc, hrest, rfl⟩
    · rintro ⟨c, cells', hc, hrest, rfl⟩
      exact ⟨c, cells', rfl, hc, hrest⟩

theorem denotesFields_iff {v : JsView} {fields : List (String × JsValue)}
    {cells : List (String × JsCell)} :
    DenotesFields v fields cells ↔
      List.Forall₂ (fun e e' => e.1 = e'.1 ∧ Denotes v e.2 e'.2) fields cells := by
  induction fields generalizing cells with
  | nil => simp [DenotesFields]
  | cons e rest ih =>
    obtain ⟨key, value⟩ := e
    simp only [DenotesFields, ih, List.forall₂_cons_left_iff]
    constructor
    · rintro ⟨c, cells', rfl, hc, hrest⟩
      exact ⟨(key, c), cells', ⟨rfl, hc⟩, hrest, rfl⟩
    · rintro ⟨⟨key', c⟩, cells', ⟨rfl, hc⟩, hrest, rfl⟩
      exact ⟨c, cells', rfl, hc, hrest⟩

mutual

theorem denotes_mono {v v' : JsView} (h : Shown v v') :
    ∀ (j : JsValue) (c : JsCell), Denotes v j c → Denotes v' j c
  | .arr items, _, ⟨a, cells, hc, ha, hitems⟩ =>
    ⟨a, cells, hc, h a _ ha, denotesItems_mono h items cells hitems⟩
  | .obj fields, _, ⟨a, cells, hc, ha, hfields⟩ =>
    ⟨a, cells, hc, h a _ ha, denotesFields_mono h fields cells hfields⟩
  | .undefined, _, hc => hc
  | .null, _, hc => hc
  | .bool _, _, hc => hc
  | .num _, _, hc => hc
  | .str _, _, hc => hc

theorem denotesItems_mono {v v' : JsView} (h : Shown v v') :
    ∀ (items : List JsValue) (cells : List JsCell), DenotesItems v items cells →
      DenotesItems v' items cells
  | [], _, hcells => hcells
  | item :: rest, _, ⟨c, cells, hcells, hc, hrest⟩ =>
    ⟨c, cells, hcells, denotes_mono h item c hc, denotesItems_mono h rest cells hrest⟩

theorem denotesFields_mono {v v' : JsView} (h : Shown v v') :
    ∀ (fields : List (String × JsValue)) (cells : List (String × JsCell)),
      DenotesFields v fields cells → DenotesFields v' fields cells
  | [], _, hcells => hcells
  | (_, value) :: rest, _, ⟨c, cells, hcells, hc, hrest⟩ =>
    ⟨c, cells, hcells, denotes_mono h value c hc, denotesFields_mono h rest cells hrest⟩

end

theorem stable_denotes : Stable Denotes := ⟨fun h hd => denotes_mono h _ _ hd⟩

section Reading

variable {v : JsView} {s : JsStore} {j : JsValue} {c : JsCell}

/-- An array is read as an array of what its items stand for. -/
theorem arrayItems_of_denotes (hv : Shown v s.view) (hd : Denotes v j c) :
    (itemsOf j = none ∧ s.arrayItems c = none) ∨ ∃ items cells, itemsOf j = some items ∧
      s.arrayItems c = some cells ∧ List.Forall₂ (Denotes v) items cells := by
  cases j with
  | arr items =>
    obtain ⟨a, cells, rfl, ha, hitems⟩ := hd
    have hread : s[a]? = some (.array cells) := hv a _ ha
    refine Or.inr ⟨items, cells, rfl, ?_, denotesItems_iff.1 hitems⟩
    simp [Store.arrayItems, hread]
  | obj fields =>
    obtain ⟨a, cells, rfl, ha, -⟩ := hd
    have hread : s[a]? = some (.record cells) := hv a _ ha
    exact Or.inl ⟨rfl, by simp [Store.arrayItems, hread]⟩
  | _ =>
    subst hd
    exact Or.inl ⟨rfl, rfl⟩

theorem fieldsOf_of_denotes (hv : Shown v s.view) (hd : Denotes v j c) :
    (isPlainObject j = false ∧ fieldsOf s c = none) ∨ ∃ fields cells, j = .obj fields ∧
      fieldsOf s c = some cells ∧ DenotesFields v fields cells := by
  cases j with
  | arr items =>
    obtain ⟨a, cells, rfl, ha, -⟩ := hd
    have hread : s[a]? = some (.array cells) := hv a _ ha
    exact Or.inl ⟨rfl, by simp [fieldsOf, hread]⟩
  | obj fields =>
    obtain ⟨a, cells, rfl, ha, hfields⟩ := hd
    have hread : s[a]? = some (.record cells) := hv a _ ha
    exact Or.inr ⟨fields, cells, rfl, by simp [fieldsOf, hread], hfields⟩
  | _ =>
    subst hd
    exact Or.inl ⟨rfl, rfl⟩

theorem isObject_of_denotes (hv : Shown v s.view) (hd : Denotes v j c) :
    isObject s c = isPlainObject j := by
  rcases fieldsOf_of_denotes hv hd with ⟨hj, hc⟩ | ⟨fields, cells, rfl, hc, -⟩
  · simp [isObject, hj, hc]
  · simp [isObject, isPlainObject, hc]

theorem lookup_of_denotesFields {fields : List (String × JsValue)}
    {cells : List (String × JsCell)} (h : DenotesFields v fields cells) (name : String) :
    Denotes v ((fields.lookup name).getD .undefined)
      ((cells.lookup name).getD (.value .undefined)) := by
  rw [denotesFields_iff] at h
  induction h with
  | nil => rfl
  | @cons e e' _ _ he hrest ih =>
    obtain ⟨key, value⟩ := e
    obtain ⟨key', c⟩ := e'
    obtain ⟨rfl, hc⟩ := he
    by_cases hname : name = key
    · subst hname
      simpa using hc
    · simpa [List.lookup_cons, beq_false_of_ne hname] using ih

theorem getField_of_denotes (hv : Shown v s.view) (hd : Denotes v j c) (name : String) :
    Denotes v (j.get name) (getField s c name) := by
  cases j with
  | arr items =>
    obtain ⟨a, cells, rfl, ha, -⟩ := hd
    have hread : s[a]? = some (.array cells) := hv a _ ha
    simp [getField, hread, JsValue.get, Denotes]
  | obj fields =>
    obtain ⟨a, cells, rfl, ha, hfields⟩ := hd
    have hread : s[a]? = some (.record cells) := hv a _ ha
    simpa [getField, hread, JsValue.get] using lookup_of_denotesFields hfields name
  | _ =>
    subst hd
    exact rfl

theorem isValidPath_of_denotes (hd : Denotes v j c) : isValidPath c = hasText j := by
  cases j with
  | arr items =>
    obtain ⟨a, cells, rfl, -⟩ := hd
    rfl
  | obj fields =>
    obtain ⟨a, cells, rfl, -⟩ := hd
    rfl
  | _ =>
    subst hd
    rfl

theorem denotesFields_setField {fields : List (String × JsValue)}
    {cells : List (String × JsCell)} (h : DenotesFields v fields cells) (name : String)
    {w : JsValue} {d : JsCell} (hw : Denotes v w d) :
    DenotesFields v (setField fields name w) (setField cells name d) := by
  rw [denotesFields_iff] at h ⊢
  induction h with
  | nil => exact .cons ⟨rfl, hw⟩ .nil
  | @cons e e' _ _ he hrest ih =>
    obtain ⟨key, value⟩ := e
    obtain ⟨key', c⟩ := e'
    obtain ⟨rfl, hc⟩ := he
    rw [setField, setField]
    split_ifs
    · exact .cons ⟨rfl, hw⟩ hrest
    · exact .cons ⟨rfl, hc⟩ ih

/-- A copy of an object with one property written. -/
theorem denotes_spreadWith {base : JsView} {s' : JsStore} (hbase : Shown base s.view)
    (hs' : Shown s.view s'.view) (hd : Denotes base j c) (hj : isPlainObject j = true)
    (name : String) {w : JsValue} {d : JsCell} (hw : Denotes (fresh base s.length s') w d) :
    Denotes (fresh base s.length (spreadWith s' c name d).1) (withField j name w)
      (spreadWith s' c name d).2 := by
  rcases fieldsOf_of_denotes (hbase.trans hs') hd with ⟨hno, -⟩ | ⟨fields, cells, rfl, hc, hfields⟩
  · rw [hj] at hno
    nomatch hno
  · have hlen : s.length ≤ s'.length := Store.length_le hs'
    have hgrow := fresh_store_mono (Store.shown_append s' [.record (setField cells name d)]) base
      s.length
    rw [spreadWith, hc]
    refine ⟨s'.length, setField cells name d, rfl, ?_, ?_⟩
    · rw [fresh, if_neg (by omega)]
      exact List.getElem?_concat_length
    · refine denotesFields_mono hgrow _ _ (denotesFields_setField ?_ name hw)
      exact denotesFields_mono ((shown_fresh hbase s')) _ _ hfields

end Reading

/-! ## Updates -/

section Updates

variable {base : JsView} {s : JsStore} {j : JsValue} {c : JsCell}

theorem refines_sanitizeValue (base : JsView) :
    Refines Denotes base sanitizeValue fun v => if isValidEntry v then some v else none := by
  have hvalid : ∀ {s : JsStore} {j c}, Shown base s.view → Denotes base j c →
      (isValidEntry j = true ↔ isObject s c = true ∧ isValidPath (getField s c "path") = true) := by
    intro s j c hbase hd
    rw [isValidEntry, Bool.and_eq_true, isObject_of_denotes hbase hd,
      isValidPath_of_denotes (getField_of_denotes hbase hd "path")]
  have heq : ∀ {s : JsStore} {j c}, Shown base s.view → Denotes base j c →
      sanitizeValue s c = (s, if isValidEntry j then .keep else .drop) := by
    intro s j c hbase hd
    rw [sanitizeValue]
    by_cases h : isValidEntry j = true
    · rw [if_pos ((hvalid hbase hd).1 h), if_pos h]
    · rw [if_neg (mt (hvalid hbase hd).2 h), if_neg h]
  constructor
  · intro s j c hbase hd
    rw [heq hbase hd]
    exact .refl _
  · intro s j c hbase hd hdrop
    rw [heq hbase hd] at hdrop
    split_ifs at hdrop with h
    exact if_neg h
  · intro s j c c' hbase hd hreplace
    rw [heq hbase hd] at hreplace
    split_ifs at hreplace
  · intro s j c hbase hd hkeep
    rw [heq hbase hd] at hkeep
    split_ifs at hkeep with h
    exact if_pos h
  · intro s j c hbase hd hsame
    rw [heq hbase hd]
    split_ifs at hsame ⊢
    rfl

/-- The filter of the values, as the loop has it. -/
theorem filterMap_isValidEntry (values : List JsValue) :
    values.filterMap (fun v => if isValidEntry v then some v else none) =
      values.filter isValidEntry := by
  rw [← List.filterMap_eq_filter]
  rfl

/-- The values of an update, as its loop sees them. -/
theorem copied_values (hbase : Shown base s.view) (hd : Denotes base j c) :
    List.Forall₂ (Denotes base) ((itemsOf (j.get "values")).getD [])
        ((s.arrayItems (getField s c "values")).getD []) ∧
      (itemsOf (j.get "values")).isNone = (s.arrayItems (getField s c "values")).isNone := by
  rcases arrayItems_of_denotes hbase (getField_of_denotes hbase hd "values") with
    ⟨hj, hc⟩ | ⟨items, cells, hj, hc, hitems⟩
  · rw [hj, hc]
    exact ⟨.nil, rfl⟩
  · rw [hj, hc]
    exact ⟨hitems, rfl⟩

theorem hasMeta_of_denotes (hbase : Shown base s.view) (hd : Denotes base j c) :
    (s.arrayItems (getField s c "meta")).getD [] ≠ [] ↔
      (itemsOf (j.get "meta")).getD [] ≠ [] := by
  rcases arrayItems_of_denotes hbase (getField_of_denotes hbase hd "meta") with
    ⟨hj, hc⟩ | ⟨items, cells, hj, hc, hitems⟩
  · rw [hj, hc]
    simp
  · rw [hj, hc]
    cases hitems <;> simp

theorem itemsOf_eq_some {v : JsValue} {items : List JsValue} :
    itemsOf v = some items ↔ v = .arr items := by
  cases v <;> simp [itemsOf]

theorem lookup_of_get {fields : List (String × JsValue)} {name : String} {items : List JsValue}
    (h : (JsValue.obj fields).get name = .arr items) : fields.lookup name = some (.arr items) := by
  rw [JsValue.get] at h
  cases hlookup : fields.lookup name with
  | none => simp [hlookup] at h
  | some v => simpa [hlookup] using h

/-- Writing what is there changes nothing. -/
theorem withField_self {name : String} {items : List JsValue} (h : j.get name = .arr items) :
    withField j name (.arr items) = j := by
  cases j with
  | obj fields => rw [withField, setField_of_lookup (lookup_of_get h)]
  | _ => nomatch h

theorem get_withField (hj : isPlainObject j = true) (name name' : String) (w : JsValue) :
    (withField j name w).get name' = if name' = name then w else j.get name' := by
  cases j with
  | obj fields =>
    rw [withField, JsValue.get, lookup_setField]
    split_ifs <;> rfl
  | _ => cases hj

/-- Something is left of an update. -/
def Remains (update : JsValue) : Prop :=
  isPlainObject update = true ∧
    (((itemsOf (update.get "values")).getD []).filter isValidEntry ≠ [] ∨
      (itemsOf (update.get "meta")).getD [] ≠ [])

theorem filterUpdate_of_remains (h : Remains j) :
    filterUpdate j = some (withField j "values"
      (.arr (((itemsOf (j.get "values")).getD []).filter isValidEntry))) := by
  obtain ⟨hobj, hleft⟩ := h
  refine if_neg fun hdrop => ?_
  rcases hdrop with hno | ⟨hvalues, hmeta⟩
  · rw [hobj] at hno
    nomatch hno
  · exact hleft.elim (fun hne => hne hvalues) hmeta

theorem filterUpdate_eq_none : filterUpdate j = none ↔ ¬Remains j := by
  constructor
  · intro h hremains
    rw [filterUpdate_of_remains hremains] at h
    nomatch h
  · intro h
    refine if_pos ?_
    by_contra hkeep
    rw [not_or, not_and_or, not_not, Bool.not_eq_false] at hkeep
    exact h hkeep

/-- The inversion of the filter. -/
theorem filterUpdate_eq_some {j' : JsValue} (h : filterUpdate j = some j') :
    Remains j ∧ withField j "values"
      (.arr (((itemsOf (j.get "values")).getD []).filter isValidEntry)) = j' := by
  have hremains : Remains j := by
    by_contra hnot
    rw [filterUpdate_eq_none.2 hnot] at h
    cases h
  rw [filterUpdate_of_remains hremains] at h
  exact ⟨hremains, Option.some.inj h⟩

/-- What is left of an update has only valid values, and is left as it is. -/
theorem filterUpdate_idem {j' : JsValue} (h : filterUpdate j = some j') :
    filterUpdate j' = some j' := by
  obtain ⟨hremains, rfl⟩ := filterUpdate_eq_some h
  set kept := ((itemsOf (j.get "values")).getD []).filter isValidEntry with hkept
  have hobj : isPlainObject (withField j "values" (.arr kept)) = true := by
    obtain ⟨hobj, -⟩ := hremains
    cases j with
    | obj fields => rfl
    | _ => nomatch hobj
  have hvalues : (withField j "values" (.arr kept)).get "values" = .arr kept := by
    rw [get_withField hremains.1, if_pos rfl]
  have hfilter : kept.filter isValidEntry = kept := by
    rw [hkept, List.filter_filter]
    simp
  have hremains' : Remains (withField j "values" (.arr kept)) := by
    refine ⟨hobj, ?_⟩
    rw [hvalues, get_withField hremains.1 "values" "meta", if_neg (by decide)]
    exact hremains.2.imp (fun hne => by rwa [itemsOf, Option.getD_some, hfilter]) id
  rw [filterUpdate_of_remains hremains', hvalues, itemsOf, Option.getD_some, hfilter,
    withField_self hvalues]

/-- An update that the filter leaves as it is has a list of valid values. -/
theorem values_of_filterUpdate_self (h : filterUpdate j = some j) :
    ∃ values, j.get "values" = .arr values ∧ ∀ v ∈ values, isValidEntry v = true := by
  obtain ⟨hremains, hleft⟩ := filterUpdate_eq_some h
  have hget := get_withField hremains.1 "values" "values"
    (.arr (((itemsOf (j.get "values")).getD []).filter isValidEntry))
  rw [if_pos rfl, hleft] at hget
  exact ⟨_, hget, fun v hv => (List.mem_filter.1 hv).2⟩

theorem denotes_filteredValues {ts : List JsValue} {g : JsValue → Option JsValue}
    {loop : CopyLoop String JsPrimitive} (h : Copied Denotes base g s ts loop)
    (hempty : loop.copy = none → ts = []) :
    Shown s.view (filteredValues loop).1.view ∧
      Denotes (fresh base s.length (filteredValues loop).1) (.arr (ts.filterMap g))
        (.object (filteredValues loop).2) := by
  unfold filteredValues
  cases hcopy : loop.copy with
  | some a =>
    obtain ⟨hle, out, hout, hitems⟩ := h.copied a hcopy
    refine ⟨h.shown, a, out, rfl, ?_, denotesItems_iff.2 ?_⟩
    · rw [fresh, if_neg (by omega)]
      exact hout
    · exact hitems.imp fun _ _ => denotes_mono (hide_shown a _) _ _
  | none =>
    have hlen : s.length ≤ loop.store.length := Store.length_le h.shown
    rw [hempty hcopy]
    refine ⟨h.shown.trans (Store.shown_append _ _), loop.store.length, [], rfl, ?_, rfl⟩
    rw [fresh, if_neg (by omega)]
    exact List.getElem?_concat_length

/-- The sanitiser of an update: what is left, and what is passed on as it is. -/
theorem sanitizeUpdate_spec (hbase : Shown base s.view) (hd : Denotes base j c) :
    Shown s.view (sanitizeUpdateForSignalK s c).1.view ∧
      match (sanitizeUpdateForSignalK s c).2 with
      | .drop => filterUpdate j = none
      | .keep => filterUpdate j = some j
      | .replace c' => ∃ j', filterUpdate j = some j' ∧
          Denotes (fresh base s.length (sanitizeUpdateForSignalK s c).1) j' c' := by
  obtain ⟨hvalues, hnone⟩ := copied_values hbase hd
  have hcopied := copyOnChange_spec stable_denotes hbase (refines_sanitizeValue base) hvalues
  have hkept := hcopied.kept
  rw [filterMap_isValidEntry] at hkept
  have hobject := isObject_of_denotes hbase hd
  have hmeta := hasMeta_of_denotes hbase hd
  unfold sanitizeUpdateForSignalK
  dsimp only
  split_ifs with hno hdrop hsame
  · refine ⟨.refl _, filterUpdate_eq_none.2 fun hremains => ?_⟩
    rw [hobject, hremains.1] at hno
    nomatch hno
  · refine ⟨hcopied.shown, filterUpdate_eq_none.2 fun hremains => ?_⟩
    rw [hkept, List.length_eq_zero_iff, hmeta] at hdrop
    exact hremains.2.elim (fun hne => hne hdrop.1) hdrop.2
  all_goals
    have hremains : Remains j := by
      refine ⟨by rw [← hobject]; simpa using hno, ?_⟩
      by_contra hnothing
      rw [not_or, not_not] at hnothing
      exact hdrop ⟨by rw [hkept, hnothing.1]; rfl, mt hmeta.1 hnothing.2⟩
    have hfilter := filterUpdate_of_remains hremains
  · -- the values are an array, and none of them has been rejected
    rw [Bool.or_eq_false_iff] at hsame
    obtain ⟨values, hj⟩ : ∃ values, j.get "values" = .arr values := by
      rw [← hnone, Option.isNone_eq_false_iff] at hsame
      obtain ⟨values, hitems⟩ := Option.isSome_iff_exists.1 hsame.1
      exact ⟨values, itemsOf_eq_some.1 hitems⟩
    rw [hj, itemsOf, Option.getD_some] at hcopied hfilter
    have hall : values.filter isValidEntry = values := by
      rw [← filterMap_isValidEntry]
      exact filterMap_eq_self (hcopied.uncopied (by simpa using hsame.2))
    refine ⟨hcopied.shown, ?_⟩
    rw [hfilter, hall, withField_self hj]
  · have hempty : (copyOnChange sanitizeValue s
        ((s.arrayItems (getField s c "values")).getD [])).copy = none →
        (itemsOf (j.get "values")).getD [] = [] := by
      intro hcopy
      rw [hcopy, ← hnone, Option.isSome_none, Bool.or_false, Bool.not_eq_false,
        Option.isNone_iff_eq_none] at hsame
      rw [hsame, Option.getD_none]
    obtain ⟨hshown, hdenotes⟩ := denotes_filteredValues hcopied hempty
    rw [filterMap_isValidEntry] at hdenotes
    exact ⟨hshown.trans (Store.shown_append _ _), _, hfilter,
      denotes_spreadWith hbase hshown hd hremains.1 "values" hdenotes⟩

/-- What the filter leaves as it is is passed on, and nothing is allocated. -/
theorem sanitizeUpdate_same (hbase : Shown base s.view) (hd : Denotes base j c)
    (h : filterUpdate j = some j) : sanitizeUpdateForSignalK s c = (s, .keep) := by
  obtain ⟨values, hj, hall⟩ := values_of_filterUpdate_self h
  obtain ⟨hremains, -⟩ := filterUpdate_eq_some h
  obtain ⟨hvalues, hnone⟩ := copied_values hbase hd
  have hsame := copyOnChange_same hbase (refines_sanitizeValue base) hvalues fun v hv => by
    rw [hj, itemsOf, Option.getD_some] at hv
    exact if_pos (hall v hv)
  have hlength := hvalues.length_eq
  have hobject := isObject_of_denotes hbase hd
  have hmeta := hasMeta_of_denotes hbase hd
  have hleft : ¬(((s.arrayItems (getField s c "values")).getD []).length = 0 ∧
      ¬(s.arrayItems (getField s c "meta")).getD [] ≠ []) := by
    rw [← hlength, hmeta, List.length_eq_zero_iff]
    rintro ⟨hempty, hnometa⟩
    exact hremains.2.elim (fun hne => hne (by rw [hempty]; rfl)) hnometa
  rw [sanitizeUpdateForSignalK, hobject, hremains.1, if_neg Bool.true_eq_false.mp]
  dsimp only
  rw [hsame, if_neg hleft, ← hnone, hj]
  rfl

/-- **The sanitiser of an update filters it.** -/
theorem refines_sanitizeUpdate (base : JsView) :
    Refines Denotes base sanitizeUpdateForSignalK filterUpdate where
  shown hbase hd := (sanitizeUpdate_spec hbase hd).1
  drop hbase hd hdrop := by
    have hspec := (sanitizeUpdate_spec hbase hd).2
    rwa [hdrop] at hspec
  replace hbase hd hreplace := by
    have hspec := (sanitizeUpdate_spec hbase hd).2
    rwa [hreplace] at hspec
  keep hbase hd hkeep := by
    have hspec := (sanitizeUpdate_spec hbase hd).2
    rwa [hkeep] at hspec
  same hbase hd := sanitizeUpdate_same hbase hd

end Updates

/-! ## Deltas -/

section Deltas

variable {base : JsView} {s : JsStore} {j : JsValue} {c : JsCell}

/-- The updates that are left of a delta. -/
def keptUpdates (delta : JsValue) : List JsValue :=
  ((itemsOf (delta.get "updates")).getD []).filterMap filterUpdate

theorem filterDelta_eq (delta : JsValue) :
    filterDelta delta = if keptUpdates delta = [] then none
      else some (withField delta "updates" (.arr (keptUpdates delta))) := rfl

theorem isPlainObject_of_get {name : String} {items : List JsValue} (h : j.get name = .arr items) :
    isPlainObject j = true := by
  cases j with
  | obj fields => rfl
  | _ => nomatch h

/-- A delta of which something is left has a list of updates. -/
theorem updates_of_kept (h : keptUpdates j ≠ []) :
    isPlainObject j = true ∧ ∃ updates, j.get "updates" = .arr updates := by
  cases hitems : itemsOf (j.get "updates") with
  | none => exact absurd (by rw [keptUpdates, hitems]; rfl) h
  | some updates =>
    have hget := itemsOf_eq_some.1 hitems
    exact ⟨isPlainObject_of_get hget, updates, hget⟩

/-- What is left of a delta is left as it is. -/
theorem filterDelta_idem {j' : JsValue} (h : filterDelta j = some j') :
    filterDelta j' = some j' := by
  rw [filterDelta_eq] at h
  split_ifs at h with hempty
  obtain rfl := Option.some.inj h
  obtain ⟨hobj, -⟩ := updates_of_kept hempty
  have hget : (withField j "updates" (.arr (keptUpdates j))).get "updates" =
      .arr (keptUpdates j) := by
    rw [get_withField hobj, if_pos rfl]
  have hkept : keptUpdates (withField j "updates" (.arr (keptUpdates j))) = keptUpdates j := by
    rw [keptUpdates, hget]
    exact filterMap_idem filterUpdate_idem _
  rw [filterDelta_eq, hkept, if_neg hempty, withField_self hget]

/-- An object has an address in the store. -/
theorem exists_address (hbase : Shown base s.view) (hd : Denotes base j c)
    (hj : isPlainObject j = true) : ∃ a < s.length, c = .object a := by
  cases j with
  | obj fields =>
    obtain ⟨a, cells, rfl, ha, -⟩ := hd
    exact ⟨a, (List.getElem?_eq_some_iff.1 (hbase a _ ha)).1, rfl⟩
  | _ => nomatch hj

/-- **The sanitiser of a delta**: what is left, and what is passed on as it is. -/
theorem sanitizeDelta_spec (hbase : Shown base s.view) (hd : Denotes base j c) :
    Shown s.view (sanitizeDeltaForSignalK s c).1.view ∧
      (filterDelta j = none → (sanitizeDeltaForSignalK s c).2 = .value .null) ∧
      (∀ j', filterDelta j = some j' → (sanitizeDeltaForSignalK s c).2 ≠ .value .null ∧
        Denotes (fresh base s.length (sanitizeDeltaForSignalK s c).1) j'
          (sanitizeDeltaForSignalK s c).2 ∧
        ((sanitizeDeltaForSignalK s c).2 = c → j' = j)) := by
  unfold sanitizeDeltaForSignalK
  rcases arrayItems_of_denotes hbase (getField_of_denotes hbase hd "updates") with
    ⟨hj, hc⟩ | ⟨updates, cells, hj, hc, hitems⟩
  · have hnone : filterDelta j = none := by
      rw [filterDelta_eq, keptUpdates, hj]
      rfl
    rw [hc]
    exact ⟨.refl _, fun _ => rfl, fun j' hj' => by cases hnone.symm.trans hj'⟩
  rw [hc]
  dsimp only
  have hcopied := copyOnChange_spec stable_denotes hbase (refines_sanitizeUpdate base) hitems
  have hget := itemsOf_eq_some.1 hj
  have hupdates : keptUpdates j = updates.filterMap filterUpdate := by
    rw [keptUpdates, hj, Option.getD_some]
  have hkept := hcopied.kept
  rw [← hupdates] at hkept
  obtain ⟨b, hb, hcb⟩ := exists_address hbase hd (isPlainObject_of_get hget)
  split_ifs with hzero
  · have hnone : filterDelta j = none := by
      rw [filterDelta_eq, if_pos (List.length_eq_zero_iff.1 (hkept.symm.trans hzero))]
    exact ⟨hcopied.shown, fun _ => rfl, fun j' hj' => by cases hnone.symm.trans hj'⟩
  have hsome : filterDelta j = some (withField j "updates" (.arr (keptUpdates j))) := by
    rw [filterDelta_eq, if_neg fun hempty => hzero (by rw [hkept, hempty]; rfl)]
  split
  next hcopy =>
    -- no update has changed
    have hsame : keptUpdates j = updates :=
      hupdates.trans (filterMap_eq_self (hcopied.uncopied hcopy))
    rw [hsame, withField_self hget] at hsome
    refine ⟨hcopied.shown, (fun hnone => by cases hsome.symm.trans hnone),
      fun j' hj' => ?_⟩
    obtain rfl := Option.some.inj (hsome.symm.trans hj')
    exact ⟨by simp [hcb], denotes_mono (shown_fresh hbase _) _ _ hd, fun _ => rfl⟩
  next a hcopy =>
    obtain ⟨hle, out, hout, hkeptItems⟩ := hcopied.copied a hcopy
    have harray : Denotes
        (fresh base s.length (copyOnChange sanitizeUpdateForSignalK s cells).store)
        (.arr (keptUpdates j)) (.object a) := by
      rw [hupdates]
      refine ⟨a, out, rfl, ?_, denotesItems_iff.2 ?_⟩
      · rw [fresh, if_neg (by omega)]
        exact hout
      · exact hkeptItems.imp fun _ _ => denotes_mono (hide_shown a _) _ _
    refine ⟨hcopied.shown.trans (Store.shown_append _ _),
      (fun hnone => by cases hsome.symm.trans hnone),
      fun j' hj' => ?_⟩
    obtain rfl := Option.some.inj (hsome.symm.trans hj')
    refine ⟨by simp [spreadWith], denotes_spreadWith hbase hcopied.shown hd
      (isPlainObject_of_get hget) "updates" harray, fun heq => ?_⟩
    -- a new object is not the delta
    have hlen := Store.length_le hcopied.shown
    rw [hcb, spreadWith] at heq
    have := Cell.object.inj heq
    omega

theorem sanitizeDelta_same (hbase : Shown base s.view) (hd : Denotes base j c)
    (h : filterDelta j = some j) : sanitizeDeltaForSignalK s c = (s, c) := by
  rw [filterDelta_eq] at h
  split_ifs at h with hempty
  obtain ⟨hobj, updates, hget⟩ := updates_of_kept hempty
  have hself : keptUpdates j = updates := by
    have hwritten := get_withField hobj "updates" "updates" (.arr (keptUpdates j))
    rw [if_pos rfl, Option.some.inj h, hget] at hwritten
    exact (JsValue.arr.inj hwritten).symm
  have hitemsOf := itemsOf_eq_some.2 hget
  rcases arrayItems_of_denotes hbase (getField_of_denotes hbase hd "updates") with
    ⟨hj, -⟩ | ⟨updates', cells, hj, hc, hitems⟩
  · rw [hitemsOf] at hj
    nomatch hj
  obtain rfl := Option.some.inj (hitemsOf.symm.trans hj)
  have hall : ∀ u ∈ updates, filterUpdate u = some u := by
    intro u hu
    rw [← hself, keptUpdates] at hu
    obtain ⟨u', -, hu'⟩ := List.mem_filterMap.1 hu
    exact filterUpdate_idem hu'
  have hlength : cells.length ≠ 0 := by
    rw [← hitems.length_eq, ← hself]
    exact mt List.length_eq_zero_iff.1 hempty
  rw [sanitizeDeltaForSignalK, hc]
  dsimp only
  rw [copyOnChange_same hbase (refines_sanitizeUpdate base) hitems hall, if_neg hlength]

end Deltas

/-! ## Payloads -/

section Payloads

variable {base : JsView} {s : JsStore} {j : JsValue} {c : JsCell}

theorem refines_sanitizeItem (base : JsView) :
    Refines Denotes base sanitizeItem filterDelta where
  shown hbase hd := (sanitizeDelta_spec hbase hd).1
  drop {s j c} hbase hd hdrop := by
    obtain ⟨-, -, hsome⟩ := sanitizeDelta_spec hbase hd
    cases h : filterDelta j with
    | none => rfl
    | some j' =>
      rw [sanitizeItem] at hdrop
      dsimp only at hdrop
      rw [if_neg (hsome j' h).1] at hdrop
      split_ifs at hdrop
  replace {s j c c'} hbase hd hreplace := by
    obtain ⟨-, hnone, hsome⟩ := sanitizeDelta_spec hbase hd
    rw [sanitizeItem] at hreplace
    dsimp only at hreplace
    split_ifs at hreplace with hnull hsame
    obtain rfl := Outcome.replace.inj hreplace
    cases h : filterDelta j with
    | none => exact absurd (hnone h) hnull
    | some j' => exact ⟨j', rfl, (hsome j' h).2.1⟩
  keep {s j c} hbase hd hkeep := by
    obtain ⟨-, hnone, hsome⟩ := sanitizeDelta_spec hbase hd
    rw [sanitizeItem] at hkeep
    dsimp only at hkeep
    split_ifs at hkeep with hnull hsame
    cases h : filterDelta j with
    | none => exact absurd (hnone h) hnull
    | some j' => rw [(hsome j' h).2.2 hsame]
  same {s j c} hbase hd hsame := by
    have hnull := ((sanitizeDelta_spec hbase hd).2.2 j hsame).1
    rw [sanitizeDelta_same hbase hd hsame] at hnull
    rw [sanitizeItem, sanitizeDelta_same hbase hd hsame]
    dsimp only
    rw [if_neg hnull, if_pos rfl]

/-- The entries that are left of a record of deltas. -/
def keptEntries (fields : List (String × JsValue)) : List (String × JsValue) :=
  fields.filterMap fun e => (filterDelta e.2).map (e.1, ·)

theorem sanitizeEntries_spec {fields : List (String × JsValue)} {cells : List (String × JsCell)}
    (hbase : Shown base s.view) (hfields : DenotesFields base fields cells) :
    Shown s.view (sanitizeEntries s cells).1.view ∧
      DenotesFields (fresh base s.length (sanitizeEntries s cells).1) (keptEntries fields)
        (sanitizeEntries s cells).2 := by
  rw [denotesFields_iff] at hfields
  induction hfields generalizing s with
  | nil => exact ⟨.refl _, rfl⟩
  | @cons e e' fields cells he hrest ih =>
    obtain ⟨key, value⟩ := e
    obtain ⟨key', d⟩ := e'
    obtain ⟨rfl, hd⟩ := he
    obtain ⟨hshown, hnone, hsome⟩ := sanitizeDelta_spec hbase hd
    obtain ⟨hshown', hentries⟩ := ih (hbase.trans hshown)
    have hlater := denotesFields_mono (fresh_mono hbase hshown
      (sanitizeEntries (sanitizeDeltaForSignalK s d).1 cells).1) _ _ hentries
    refine ⟨hshown.trans hshown', ?_⟩
    rw [sanitizeEntries]
    dsimp only
    cases h : filterDelta value with
    | none =>
      rw [if_pos (hnone h), keptEntries, List.filterMap_cons, h]
      exact hlater
    | some value' =>
      obtain ⟨hnull, hdenotes, -⟩ := hsome value' h
      rw [if_neg hnull, keptEntries, List.filterMap_cons, h]
      exact ⟨_, _, rfl, denotes_mono (fresh_store_mono hshown' base s.length) _ _ hdenotes, hlater⟩

/-- A record of deltas, which is not a delta itself. -/
def isRecordPayload (payload : JsValue) : Bool :=
  isPlainObject payload && (itemsOf (payload.get "updates")).isNone

theorem filterPayload_obj (fields : List (String × JsValue)) :
    filterPayload (.obj fields) =
      if (itemsOf ((JsValue.obj fields).get "updates")).isSome then filterDelta (.obj fields)
      else if keptEntries fields = [] then none else some (.obj (keptEntries fields)) := rfl

/-- The sanitiser of an object: as a delta, or entry by entry. -/
theorem sanitizePayload_obj {fields : List (String × JsValue)} (hbase : Shown base s.view)
    (hd : Denotes base (.obj fields) c) :
    sanitizeDeltaPayloadForSignalK s c =
      if (itemsOf ((JsValue.obj fields).get "updates")).isSome then
        some (sanitizeDeltaForSignalK s c)
      else
        let sanitized := sanitizeEntries s ((fieldsOf s c).getD [])
        if sanitized.2 = [] then some (sanitized.1, .value .null)
        else some (sanitized.1 ++ [.record sanitized.2], .object sanitized.1.length) := by
  have harray : s.arrayItems c = none := by
    rcases arrayItems_of_denotes hbase hd with ⟨-, hc⟩ | ⟨items, cells, hj, -⟩
    · exact hc
    · nomatch hj
  have hlike : isDeltaLike s c = (itemsOf ((JsValue.obj fields).get "updates")).isSome := by
    rw [isDeltaLike, isObject_of_denotes hbase hd]
    rcases arrayItems_of_denotes hbase (getField_of_denotes hbase hd "updates") with
      ⟨hj, hc⟩ | ⟨updates, cells, hj, hc, -⟩ <;> simp [hj, hc, isPlainObject]
  obtain ⟨b, -, hcb⟩ := exists_address hbase hd rfl
  rw [sanitizeDeltaPayloadForSignalK, harray, hlike]
  dsimp only
  rw [if_neg (by simp [hcb] : ¬(c = .value .null ∨ c = .value .undefined))]

/-- **The sanitiser of a payload**: what is left of it. -/
theorem sanitizePayload_spec (hbase : Shown base s.view) (hd : Denotes base j c)
    (hnull : j ≠ .null) (hundefined : j ≠ .undefined) :
    ∃ r, sanitizeDeltaPayloadForSignalK s c = some r ∧ Shown s.view r.1.view ∧
      (filterPayload j = none → r.2 = .value .null) ∧
      ∀ j', filterPayload j = some j' →
        r.2 ≠ .value .null ∧ Denotes (fresh base s.length r.1) j' r.2 := by
  cases j with
  | arr items =>
    rcases arrayItems_of_denotes hbase hd with ⟨hj, -⟩ | ⟨items', cells, hj, hc, hitems⟩
    · cases hj
    obtain rfl : items = items' := Option.some.inj hj
    have hcopied := copyOnChange_spec stable_denotes hbase (refines_sanitizeItem base) hitems
    have hkept := hcopied.kept
    rw [sanitizeDeltaPayloadForSignalK, hc]
    refine ⟨_, rfl, hcopied.shown, ?_⟩
    by_cases hempty : items.filterMap filterDelta = []
    · have hzero := hkept.trans (List.length_eq_zero_iff.2 hempty)
      have hnone : filterPayload (.arr items) = none := if_pos hempty
      dsimp only
      rw [if_pos hzero]
      exact ⟨fun _ => rfl, fun j' hj' => by cases hnone.symm.trans hj'⟩
    · have hsome : filterPayload (.arr items) = some (.arr (items.filterMap filterDelta)) :=
        if_neg hempty
      have hpos := mt (fun hzero => List.length_eq_zero_iff.1 (hkept.symm.trans hzero)) hempty
      dsimp only
      rw [if_neg hpos]
      refine ⟨(fun hnone => by cases hsome.symm.trans hnone), fun j' hj' => ?_⟩
      obtain rfl := Option.some.inj (hsome.symm.trans hj')
      cases hcopy : (copyOnChange sanitizeItem s cells).copy with
      | none =>
        rw [filterMap_eq_self (hcopied.uncopied hcopy)]
        obtain ⟨a, cells', rfl, -⟩ := id hd
        exact ⟨by simp, denotes_mono (shown_fresh hbase _) _ _ hd⟩
      | some a =>
        obtain ⟨hle, out, hout, hkeptItems⟩ := hcopied.copied a hcopy
        refine ⟨by simp, a, out, rfl, ?_, denotesItems_iff.2 ?_⟩
        · rw [fresh, if_neg (by omega)]
          exact hout
        · exact hkeptItems.imp fun _ _ => denotes_mono (hide_shown a _) _ _
  | obj fields =>
    rw [sanitizePayload_obj hbase hd, filterPayload_obj]
    by_cases hupdates : (itemsOf ((JsValue.obj fields).get "updates")).isSome = true
    · obtain ⟨hshown, hnone, hsome⟩ := sanitizeDelta_spec hbase hd
      rw [if_pos hupdates, if_pos hupdates]
      exact ⟨_, rfl, hshown, hnone, fun j' hj' => ⟨(hsome j' hj').1, (hsome j' hj').2.1⟩⟩
    · rcases fieldsOf_of_denotes hbase hd with ⟨hno, -⟩ | ⟨fields', cells, heq, hc, hfields⟩
      · cases hno
      obtain rfl := JsValue.obj.inj heq
      obtain ⟨hshown, hentries⟩ := sanitizeEntries_spec hbase hfields
      rw [if_neg hupdates, if_neg hupdates, hc, Option.getD_some]
      dsimp only
      have hempty : (sanitizeEntries s cells).2 = [] ↔ keptEntries fields = [] := by
        have hlength := (denotesFields_iff.1 hentries).length_eq
        rw [← List.length_eq_zero_iff, ← hlength, List.length_eq_zero_iff]
      by_cases hleft : keptEntries fields = []
      · rw [if_pos (hempty.2 hleft), if_pos hleft]
        exact ⟨_, rfl, hshown, fun _ => rfl, fun j' hj' => by cases hj'⟩
      · have hlen := Store.length_le hshown
        rw [if_neg (mt hempty.1 hleft), if_neg hleft]
        refine ⟨_, rfl, hshown.trans (Store.shown_append _ _), (fun hnone => by cases hnone),
          fun j' hj' => ?_⟩
        obtain rfl := Option.some.inj hj'
        refine ⟨by simp, _, _, rfl, ?_, denotesFields_mono (fresh_store_mono
          (Store.shown_append _ _) base s.length) _ _ hentries⟩
        rw [fresh, if_neg (by omega)]
        exact List.getElem?_concat_length
  | null => exact absurd rfl hnull
  | undefined => exact absurd rfl hundefined
  | _ =>
    subst hd
    exact ⟨(s, .value .null), rfl, .refl _, fun _ => rfl, fun j' hj' => by cases hj'⟩

theorem keptEntries_idem (fields : List (String × JsValue)) :
    keptEntries (keptEntries fields) = keptEntries fields := by
  refine filterMap_idem (fun he => ?_) fields
  obtain ⟨value, hvalue, rfl⟩ := Option.map_eq_some_iff.1 he
  rw [filterDelta_idem hvalue]
  rfl

/-- What is left of a delta is a delta. -/
theorem updates_of_filterDelta {j' : JsValue} (h : filterDelta j = some j') :
    isPlainObject j' = true ∧ ∃ updates, j'.get "updates" = .arr updates := by
  have hidem := filterDelta_idem h
  rw [filterDelta_eq] at hidem
  split_ifs at hidem with hempty
  exact updates_of_kept hempty

/-- What is left of a record is a record. -/
theorem isRecord_keptEntries (fields : List (String × JsValue)) :
    (itemsOf ((JsValue.obj (keptEntries fields)).get "updates")).isSome = false := by
  rw [JsValue.get]
  cases hlookup : (keptEntries fields).lookup "updates" with
  | none => rfl
  | some value =>
    obtain ⟨e, -, he⟩ := List.mem_filterMap.1 (mem_of_lookup hlookup)
    obtain ⟨value', hvalue, heq⟩ := Option.map_eq_some_iff.1 he
    obtain rfl : value' = value := (Prod.ext_iff.1 heq).2
    have hobj := (updates_of_filterDelta hvalue).1
    cases value' with
    | obj fields => rfl
    | _ => cases hobj

/-- What is left of a payload is left as it is. -/
theorem filterPayload_idem {j' : JsValue} (h : filterPayload j = some j') :
    filterPayload j' = some j' ∧ isRecordPayload j' = isRecordPayload j := by
  cases j with
  | arr items =>
    rw [filterPayload] at h
    split_ifs at h with hempty
    obtain rfl := Option.some.inj h
    refine ⟨?_, rfl⟩
    rw [filterPayload, filterMap_idem filterDelta_idem]
    exact if_neg hempty
  | obj fields =>
    rw [filterPayload_obj] at h
    split_ifs at h with hupdates hempty
    · obtain ⟨hobj, updates, hget⟩ := updates_of_filterDelta h
      cases j' with
      | obj fields' =>
        rw [filterPayload_obj, hget]
        refine ⟨filterDelta_idem h, ?_⟩
        rw [isRecordPayload, isRecordPayload, hget, ← Option.not_isSome, ← Option.not_isSome,
          hupdates]
        rfl
      | _ => nomatch hobj
    · obtain rfl := Option.some.inj h
      have hrecord := isRecord_keptEntries fields
      refine ⟨?_, ?_⟩
      · rw [filterPayload_obj, hrecord, keptEntries_idem, if_neg hempty]
        rfl
      · rw [isRecordPayload, isRecordPayload, ← Option.not_isSome, ← Option.not_isSome, hrecord,
          Bool.eq_false_iff.2 hupdates]
        rfl
  | _ => nomatch h

/-- A batch or a delta that the filter leaves as it is is passed on. -/
theorem sanitizePayload_same (hbase : Shown base s.view) (hd : Denotes base j c)
    (h : filterPayload j = some j) (hrecord : isRecordPayload j = false) :
    sanitizeDeltaPayloadForSignalK s c = some (s, c) := by
  cases j with
  | arr items =>
    rcases arrayItems_of_denotes hbase hd with ⟨hj, -⟩ | ⟨items', cells, hj, hc, hitems⟩
    · cases hj
    obtain rfl : items = items' := Option.some.inj hj
    rw [filterPayload] at h
    split_ifs at h with hempty
    have hself : items.filterMap filterDelta = items := JsValue.arr.inj (Option.some.inj h)
    have hall : ∀ d ∈ items, filterDelta d = some d := by
      intro d hd'
      rw [← hself] at hd'
      obtain ⟨d', -, hd''⟩ := List.mem_filterMap.1 hd'
      exact filterDelta_idem hd''
    have hlength : cells.length ≠ 0 := by
      rw [← hitems.length_eq, ← hself]
      exact mt List.length_eq_zero_iff.1 hempty
    rw [sanitizeDeltaPayloadForSignalK, hc]
    dsimp only
    rw [copyOnChange_same hbase (refines_sanitizeItem base) hitems hall, if_neg hlength]
  | obj fields =>
    have hupdates : (itemsOf ((JsValue.obj fields).get "updates")).isSome = true := by
      rw [isRecordPayload] at hrecord
      simpa [isPlainObject, Option.isSome_iff_ne_none] using hrecord
    rw [filterPayload_obj, if_pos hupdates] at h
    rw [sanitizePayload_obj hbase hd, if_pos hupdates, sanitizeDelta_same hbase hd h]
  | _ => cases h

end Payloads

/-- **Lazy sanitising is the plain filter.** For a value that stands for a tree: the sanitisers
leave every object that exists as it is; their result stands for the filtered tree, and is `null` exactly
when nothing is left; and applied to it they return it, a batch and a delta by reference, a record
of deltas as an equal one. -/
theorem lazy_sanitize {s : JsStore} {j : JsValue} {c : JsCell} (hd : Denotes s.view j c) :
    (∃ r, sanitizeDeltaForSignalK s c = r ∧
      Shown s.view r.1.view ∧ Denotes r.1.view ((filterDelta j).getD .null) r.2 ∧
        (r.2 = .value .null ↔ filterDelta j = none) ∧ sanitizeDeltaForSignalK r.1 r.2 = r) ∧
    (j ≠ .null → j ≠ .undefined → ∃ r, sanitizeDeltaPayloadForSignalK s c = some r ∧
      Shown s.view r.1.view ∧ Denotes r.1.view ((filterPayload j).getD .null) r.2 ∧
        (r.2 = .value .null ↔ filterPayload j = none) ∧
        (r.2 ≠ .value .null → ∃ r', sanitizeDeltaPayloadForSignalK r.1 r.2 = some r' ∧
          Shown r.1.view r'.1.view ∧ Denotes r'.1.view ((filterPayload j).getD .null) r'.2 ∧
          (isRecordPayload j = false → r' = r))) := by
  have hbase := Shown.refl s.view
  refine ⟨?_, fun hnull hundefined => ?_⟩
  · obtain ⟨hshown, hnone, hsome⟩ := sanitizeDelta_spec hbase hd
    refine ⟨_, rfl, hshown, ?_⟩
    cases h : filterDelta j with
    | none =>
      have hpair : sanitizeDeltaForSignalK s c = (_, .value .null) := Prod.ext rfl (hnone h)
      refine ⟨hnone h, by simp [hnone h], ?_⟩
      rw [hpair]
      rfl
    | some j' =>
      obtain ⟨hr, hdenotes, -⟩ := hsome j' h
      have hresult := denotes_mono (fresh_shown (hbase.trans hshown) s.length) _ _ hdenotes
      exact ⟨hresult, by simp [hr], sanitizeDelta_same (.refl _) hresult (filterDelta_idem h)⟩
  · obtain ⟨r, hr, hshown, hnone, hsome⟩ := sanitizePayload_spec hbase hd hnull hundefined
    refine ⟨r, hr, hshown, ?_⟩
    cases h : filterPayload j with
    | none => exact ⟨hnone h, by simp [hnone h], fun hne => absurd (hnone h) hne⟩
    | some j' =>
      obtain ⟨hrnull, hdenotes⟩ := hsome j' h
      have hresult := denotes_mono (fresh_shown (hbase.trans hshown) s.length) _ _ hdenotes
      obtain ⟨hidem, hrecord⟩ := filterPayload_idem h
      refine ⟨hresult, by simp [hrnull], fun _ => ?_⟩
      have hleft : j' ≠ .null ∧ j' ≠ .undefined := by
        constructor <;>
          · rintro rfl
            nomatch hidem
      obtain ⟨r', hr', hshown', -, hsome'⟩ :=
        sanitizePayload_spec (.refl _) hresult hleft.1 hleft.2
      refine ⟨r', hr', hshown', ?_, fun hno => ?_⟩
      · exact denotes_mono (fresh_shown hshown' _) _ _ (hsome' j' hidem).2
      · have hsame := sanitizePayload_same (.refl _) hresult hidem (hrecord.trans hno)
        exact Option.some.inj (hr'.symm.trans hsame)

/-- An update outside, and a batch of it: the batch is passed on, the update cleaned up. -/
theorem lazy_sanitize_batch :
    let value (path : JsPrimitive) : StoredObject String JsPrimitive :=
      .record [("path", .value path), ("value", .value .null)]
    let s : JsStore := [value (.str "a.b"), value (.str " "), .array [.object 0, .object 1],
      .record [("values", .object 2)], .array [.object 3], .record [("updates", .object 4)],
      .array [.object 5]]
    let kept : JsValue := .obj [("path", .str "a.b"), ("value", .null)]
    let batch (values : List JsValue) : JsValue :=
      .arr [.obj [("updates", .arr [.obj [("values", .arr values)]])]]
    ∃ r, sanitizeDeltaPayloadForSignalK s (.object 6) = some r ∧ Shown s.view r.1.view ∧
      Denotes r.1.view (batch [kept]) r.2 ∧ sanitizeDeltaPayloadForSignalK r.1 r.2 = some r := by
  intro value s kept batch
  let blank : JsValue := .obj [("path", .str " "), ("value", .null)]
  have hd : Denotes s.view (batch [kept, blank]) (.object 6) := by
    simp [Denotes, DenotesItems, DenotesFields, batch, kept, blank, s, value, Store.view]
  obtain ⟨r, hr, hshown, hdenotes, hnull, hagain⟩ :=
    (lazy_sanitize hd).2 (by simp [batch]) (by simp [batch])
  have hfilter : filterPayload (batch [kept, blank]) = some (batch [kept]) := by decide +kernel
  rw [hfilter] at hdenotes hnull
  obtain ⟨r', hr', -, -, hsame⟩ := hagain (mt hnull.1 (by simp))
  exact ⟨r, hr, hshown, hdenotes, hsame rfl ▸ hr'⟩

/-! ## Typed deltas -/

section Typed

def encodeValue (v : DeltaValue) : JsValue := .obj [("path", .str v.path), ("value", v.value)]

def encodeMeta (m : DeltaMeta) : JsValue := .obj [("path", .str m.path), ("value", m.value)]

def encodeText (text : Option String) : JsValue := (text.map JsValue.str).getD .undefined

/-- An update as an object. -/
def encodeUpdate (update : DeltaUpdate) : JsValue :=
  .obj [("source", update.source), ("$source", encodeText update.sourceRef),
    ("timestamp", encodeText update.timestamp), ("values", .arr (update.values.map encodeValue)),
    ("meta", (update.metaEntries.map fun entries => JsValue.arr (entries.map encodeMeta)).getD
      .undefined)]

def encodeDelta (delta : Delta) : JsValue :=
  .obj [("context", encodeText delta.context), ("updates", .arr (delta.updates.map encodeUpdate))]

theorem isValidEntry_encodeValue (v : DeltaValue) :
    isValidEntry (encodeValue v) = isValidValuePath v.path := rfl

theorem hasMeta_encodeUpdate (update : DeltaUpdate) :
    (itemsOf ((encodeUpdate update).get "meta")).getD [] ≠ [] ↔ update.hasMeta = true := by
  change (itemsOf ((update.metaEntries.map fun entries =>
    JsValue.arr (entries.map encodeMeta)).getD .undefined)).getD [] ≠ [] ↔ _
  rw [DeltaUpdate.hasMeta]
  rcases update.metaEntries with _ | _ | ⟨m, entries⟩ <;> simp [itemsOf]

/-- On typed updates the filter is the sanitiser of the typed codec. -/
theorem filterUpdate_encodeUpdate (update : DeltaUpdate) :
    filterUpdate (encodeUpdate update) =
      (EdgeLink.sanitizeUpdateForSignalK update).map encodeUpdate := by
  have hvalues : ((itemsOf ((encodeUpdate update).get "values")).getD []).filter isValidEntry =
      (update.values.filter fun v => isValidValuePath v.path).map encodeValue := by
    change (update.values.map encodeValue).filter isValidEntry = _
    rw [List.filter_map]
    rfl
  have hmeta := hasMeta_encodeUpdate update
  rw [EdgeLink.sanitizeUpdateForSignalK]
  split_ifs with hdrop
  · rw [Option.map_none, filterUpdate_eq_none]
    rintro ⟨-, hleft⟩
    rw [hvalues, hmeta, hdrop.1, hdrop.2] at hleft
    simp at hleft
  · have hremains : Remains (encodeUpdate update) := by
      refine ⟨rfl, ?_⟩
      rw [hvalues, hmeta]
      by_contra hnothing
      rw [not_or, not_not, Bool.not_eq_true] at hnothing
      exact hdrop ⟨List.map_eq_nil_iff.1 hnothing.1, hnothing.2⟩
    rw [filterUpdate_of_remains hremains, hvalues]
    rfl

theorem filterDelta_encodeDelta (delta : Delta) :
    filterDelta (encodeDelta delta) =
      (EdgeLink.sanitizeDeltaForSignalK delta).map encodeDelta := by
  have hkept : keptUpdates (encodeDelta delta) =
      (delta.updates.filterMap EdgeLink.sanitizeUpdateForSignalK).map encodeUpdate := by
    change (delta.updates.map encodeUpdate).filterMap filterUpdate = _
    rw [List.filterMap_map, List.map_filterMap]
    exact List.filterMap_congr fun u _ => filterUpdate_encodeUpdate u
  rw [filterDelta_eq, hkept, EdgeLink.sanitizeDeltaForSignalK]
  cases delta.updates.filterMap EdgeLink.sanitizeUpdateForSignalK with
  | nil => rfl
  | cons u updates => rfl

end Typed

end LazySanitize

end EdgeLink
