import EdgeLink.Codec.JsTree
import EdgeLink.Codec.JsText
import EdgeLink.Codec.ValuesSnapshot

/-!
# Source snapshots of a peer

`codec/source-snapshot.ts`: a peer's `sources` tree is validated and merged into the live tree. The
tree is an ordinary object, so that a key it does not have is read from `Object.prototype`, and what
is written through an inherited object would be seen by every other object; `added` is what
`Object.prototype` has been given in this way.

* `mergePlain_eq`: merging reads and writes own properties only, and is the overlay of what is
  accepted.
* `containedMerge`: what a merge does to the tree.
-/

namespace EdgeLink

open JsValue

def SOURCE_SNAPSHOT_MAX_PROVIDERS : ℕ := 256

def SOURCE_SNAPSHOT_MAX_KEY_LENGTH : ℕ := 128

def SOURCE_SNAPSHOT_MAX_STRING_LENGTH : ℕ := 1024

def SOURCE_SNAPSHOT_MAX_DEPTH : ℕ := 8

def SOURCE_SNAPSHOT_MAX_ARRAY_LENGTH : ℕ := 256

def SOURCE_SNAPSHOT_MAX_OBJECT_KEYS : ℕ := 256

def BLOCKED_KEYS : List String := ["__proto__", "constructor", "prototype"]

/-- `/^[\x20-\x7E]+$/` -/
def matchesKeyPattern (key : String) : Bool :=
  key ≠ "" && key.toList.all fun c => 0x20 ≤ c.toNat && c.toNat ≤ 0x7E

def isAcceptableKey (key : String) : Bool :=
  key ∉ BLOCKED_KEYS && 0 < utf16Length key && utf16Length key ≤ SOURCE_SNAPSHOT_MAX_KEY_LENGTH &&
    matchesKeyPattern key

mutual

/-- A copy without the blocked keys. -/
def clonePlain : JsValue → JsValue
  | .arr items => .arr (cloneItems items)
  | .obj fields => .obj (cloneFields fields)
  | v => v

def cloneItems : List JsValue → List JsValue
  | [] => []
  | v :: rest => clonePlain v :: cloneItems rest

def cloneFields : List (String × JsValue) → List (String × JsValue)
  | [] => []
  | (key, v) :: rest =>
    if key ∈ BLOCKED_KEYS then cloneFields rest else (key, clonePlain v) :: cloneFields rest

end

mutual

/-- A value within the limits, at some depth. -/
def isAcceptableValue (depth : ℕ) : JsValue → Bool
  | .undefined => false
  | .null => depth ≤ SOURCE_SNAPSHOT_MAX_DEPTH
  | .bool _ => depth ≤ SOURCE_SNAPSHOT_MAX_DEPTH
  | .num (.finite _) => depth ≤ SOURCE_SNAPSHOT_MAX_DEPTH
  | .num _ => false
  | .str s => depth ≤ SOURCE_SNAPSHOT_MAX_DEPTH && utf16Length s ≤ SOURCE_SNAPSHOT_MAX_STRING_LENGTH
  | .arr items => depth ≤ SOURCE_SNAPSHOT_MAX_DEPTH &&
      items.length ≤ SOURCE_SNAPSHOT_MAX_ARRAY_LENGTH && areAcceptableItems (depth + 1) items
  | .obj fields => depth ≤ SOURCE_SNAPSHOT_MAX_DEPTH &&
      fields.length ≤ SOURCE_SNAPSHOT_MAX_OBJECT_KEYS && areAcceptableFields (depth + 1) fields

def areAcceptableItems (depth : ℕ) : List JsValue → Bool
  | [] => true
  | v :: rest => isAcceptableValue depth v && areAcceptableItems depth rest

def areAcceptableFields (depth : ℕ) : List (String × JsValue) → Bool
  | [] => true
  | (key, v) :: rest =>
    isAcceptableKey key && isAcceptableValue depth v && areAcceptableFields depth rest

end

/-! ## Merging -/

/-- What reading a property of a plain object finds. -/
inductive Property where
  | absent
  | own (v : JsValue)
  /-- something that `Object.prototype` has been given -/
  | inherited (v : JsValue)
  /-- a function of `Object.prototype` -/
  | method
  /-- `Object.prototype` itself -/
  | prototype

def readProperty (added target : List (String × JsValue)) (key : String) : Property :=
  match target.lookup key with
  | some v => .own v
  | none =>
    if key = "__proto__" then .prototype
    else
      match added.lookup key with
      | some v => .inherited v
      | none => if key ∈ objectPrototypeMembers then .method else .absent

/-- Assign a property; without an own one, `__proto__` changes what the object inherits from. -/
def assignProperty (target : List (String × JsValue)) (key : String) (v : JsValue) :
    List (String × JsValue) :=
  if key = "__proto__" ∧ target.lookup key = none then target else setField target key v

mutual

/-- Merge what is accepted of an object. -/
def mergePlain (added target : List (String × JsValue)) :
    List (String × JsValue) → List (String × JsValue) × List (String × JsValue)
  | [] => (added, target)
  | (key, incomingValue) :: rest =>
    let r :=
      if isAcceptableKey key && isAcceptableValue 1 incomingValue then
        mergeEntry added target key incomingValue
      else (added, target)
    mergePlain r.1 r.2 rest

/-- Descend into an object that is there, otherwise replace what is there. -/
def mergeEntry (added target : List (String × JsValue)) (key : String) :
    JsValue → List (String × JsValue) × List (String × JsValue)
  | .obj incoming =>
    match readProperty added target key with
    | .own (.obj current) =>
      let r := mergePlain added current incoming
      (r.1, setField target key (.obj r.2))
    | .inherited (.obj current) =>
      let r := mergePlain added current incoming
      (setField r.1 key (.obj r.2), target)
    | .prototype => ((mergePlain added added incoming).2, target)
    | _ => (added, assignProperty target key (clonePlain (.obj incoming)))
  | incomingValue => (added, assignProperty target key (clonePlain incomingValue))

end

/-- The first providers that are accepted, up to the cap. -/
def limitProviders (count : ℕ) : List (String × JsValue) → List (String × JsValue)
  | [] => []
  | (key, value) :: rest =>
    if SOURCE_SNAPSHOT_MAX_PROVIDERS ≤ count then []
    else if !isAcceptableKey key || !isAcceptableValue 1 value then limitProviders count rest
    else (key, value) :: limitProviders (count + 1) rest

/-- What a merge leaves behind. -/
structure MergeResult where
  /-- what `Object.prototype` has been given -/
  added : List (String × JsValue)
  root : List (String × JsValue)
  /-- the number of new providers -/
  count : ℤ
  deriving DecidableEq

def mergeSourceSnapshot (added root : List (String × JsValue)) (sources : JsValue) :
    MergeResult :=
  match sources with
  | .obj fields =>
    let target := (recordFields ((root.lookup "sources").getD .undefined)).getD []
    let r := mergePlain added target (limitProviders 0 fields)
    ⟨r.1, setField root "sources" (.obj r.2), r.2.length - target.length⟩
  | _ => ⟨added, root, 0⟩

/-! ## What is accepted -/

theorem ne_proto_of_isAcceptableKey {key : String} (h : isAcceptableKey key = true) :
    key ≠ "__proto__" ∧ key ∉ BLOCKED_KEYS := by
  have hblocked : key ∉ BLOCKED_KEYS := by
    simp only [isAcceptableKey, Bool.and_eq_true, decide_eq_true_eq] at h
    exact h.1.1.1
  refine ⟨?_, hblocked⟩
  rintro rfl
  exact hblocked (by decide)

theorem areAcceptableFields_iff {depth : ℕ} {fields : List (String × JsValue)} :
    areAcceptableFields depth fields = true ↔
      ∀ e ∈ fields, isAcceptableKey e.1 = true ∧ isAcceptableValue depth e.2 = true := by
  induction fields with
  | nil => simp [areAcceptableFields]
  | cons e fields ih => simp [areAcceptableFields, ih, and_assoc]

mutual

/-- What is accepted further down is accepted further up. -/
theorem isAcceptableValue_mono : ∀ {v : JsValue} {depth depth' : ℕ}, depth ≤ depth' →
    isAcceptableValue depth' v = true → isAcceptableValue depth v = true
  | .undefined, _, _ => fun _ h => h
  | .null, _, _ | .bool _, _, _ | .num (.finite _), _, _ => fun hle h => by
    simp only [isAcceptableValue, decide_eq_true_eq] at h ⊢
    omega
  | .num .nan, _, _ | .num .posInf, _, _ | .num .negInf, _, _ => fun _ h => h
  | .str _, _, _ => fun hle h => by
    simp only [isAcceptableValue, Bool.and_eq_true, decide_eq_true_eq] at h ⊢
    omega
  | .arr items, _, _ => fun hle h => by
    simp only [isAcceptableValue, Bool.and_eq_true, decide_eq_true_eq] at h ⊢
    exact ⟨⟨by omega, h.1.2⟩, areAcceptableItems_mono (by omega) h.2⟩
  | .obj fields, _, _ => fun hle h => by
    simp only [isAcceptableValue, Bool.and_eq_true, decide_eq_true_eq] at h ⊢
    exact ⟨⟨by omega, h.1.2⟩, areAcceptableFields_mono (by omega) h.2⟩

theorem areAcceptableItems_mono : ∀ {items : List JsValue} {depth depth' : ℕ}, depth ≤ depth' →
    areAcceptableItems depth' items = true → areAcceptableItems depth items = true
  | [], _, _ => fun _ _ => rfl
  | v :: rest, _, _ => fun hle h => by
    rw [areAcceptableItems, Bool.and_eq_true] at h ⊢
    exact ⟨isAcceptableValue_mono hle h.1, areAcceptableItems_mono hle h.2⟩

theorem areAcceptableFields_mono : ∀ {fields : List (String × JsValue)} {depth depth' : ℕ},
    depth ≤ depth' → areAcceptableFields depth' fields = true →
      areAcceptableFields depth fields = true
  | [], _, _ => fun _ _ => rfl
  | (key, v) :: rest, _, _ => fun hle h => by
    simp only [areAcceptableFields, Bool.and_eq_true] at h ⊢
    exact ⟨⟨h.1.1, isAcceptableValue_mono hle h.1.2⟩, areAcceptableFields_mono hle h.2⟩

end

mutual

/-- Nothing that is accepted has a blocked key. -/
theorem clonePlain_eq_self : ∀ {v : JsValue} {depth : ℕ}, isAcceptableValue depth v = true →
    clonePlain v = v
  | .undefined, _ | .null, _ | .bool _, _ | .num _, _ | .str _, _ => fun _ => rfl
  | .arr items, _ => fun h => by
    rw [isAcceptableValue, Bool.and_eq_true] at h
    rw [clonePlain, cloneItems_eq_self h.2]
  | .obj fields, _ => fun h => by
    rw [isAcceptableValue, Bool.and_eq_true] at h
    rw [clonePlain, cloneFields_eq_self h.2]

theorem cloneItems_eq_self : ∀ {items : List JsValue} {depth : ℕ},
    areAcceptableItems depth items = true → cloneItems items = items
  | [], _ => fun _ => rfl
  | v :: rest, _ => fun h => by
    rw [areAcceptableItems, Bool.and_eq_true] at h
    rw [cloneItems, clonePlain_eq_self h.1, cloneItems_eq_self h.2]

theorem cloneFields_eq_self : ∀ {fields : List (String × JsValue)} {depth : ℕ},
    areAcceptableFields depth fields = true → cloneFields fields = fields
  | [], _ => fun _ => rfl
  | (key, v) :: rest, _ => fun h => by
    simp only [areAcceptableFields, Bool.and_eq_true] at h
    rw [cloneFields, if_neg (ne_proto_of_isAcceptableKey h.1.1).2, clonePlain_eq_self h.1.2,
      cloneFields_eq_self h.2]

end

/-! ## Own properties only -/

/-- An acceptable key that is not there is absent, or the name of a function. -/
theorem readProperty_of_isAcceptableKey {target : List (String × JsValue)} {key : String}
    (h : isAcceptableKey key = true) :
    (∃ v, target.lookup key = some v ∧ readProperty [] target key = .own v) ∨
      (target.lookup key = none ∧
        (readProperty [] target key = .method ∨ readProperty [] target key = .absent)) := by
  unfold readProperty
  cases target.lookup key with
  | some v => exact Or.inl ⟨v, rfl, rfl⟩
  | none =>
    refine Or.inr ⟨rfl, ?_⟩
    simp only [List.lookup_nil, if_neg (ne_proto_of_isAcceptableKey h).1]
    split_ifs
    · exact Or.inl rfl
    · exact Or.inr rfl

theorem assignProperty_of_isAcceptableKey {target : List (String × JsValue)} {key : String}
    (h : isAcceptableKey key = true) (v : JsValue) :
    assignProperty target key v = setField target key v :=
  if_neg fun hproto => (ne_proto_of_isAcceptableKey h).1 hproto.1

mutual

theorem mergeEntry_eq : ∀ {v : JsValue} {depth : ℕ}, isAcceptableValue depth v = true →
    ∀ {key : String}, isAcceptableKey key = true → ∀ target,
      mergeEntry [] target key v = ([], setField target key (overlay (target.lookup key) v))
  | .obj incoming, depth => fun h key hkey target => by
    have hclone := clonePlain_eq_self h
    rw [isAcceptableValue, Bool.and_eq_true] at h
    have hbelow := mergePlain_eq (Nat.le_add_left 1 depth) h.2
    rw [mergeEntry]
    rcases readProperty_of_isAcceptableKey hkey with
      ⟨current, hlookup, hread⟩ | ⟨hlookup, hread | hread⟩
    · rw [hread, hlookup]
      cases current with
      | obj current => simp only [hbelow, overlay]
      | _ => simp only [assignProperty_of_isAcceptableKey hkey, hclone, overlay]
    · rw [hread, hlookup, overlay_none]
      simp only [assignProperty_of_isAcceptableKey hkey, hclone]
    · rw [hread, hlookup, overlay_none]
      simp only [assignProperty_of_isAcceptableKey hkey, hclone]
  | .undefined, _ | .null, _ | .bool _, _ | .num _, _ | .str _, _ | .arr _, _ =>
    fun h key hkey target => by
      rw [mergeEntry, assignProperty_of_isAcceptableKey hkey, clonePlain_eq_self h, overlay]
      all_goals simp

/-- Merging an accepted object is laying it over the own properties of what is there. -/
theorem mergePlain_eq : ∀ {fields : List (String × JsValue)} {depth : ℕ}, 1 ≤ depth →
    areAcceptableFields depth fields = true → ∀ target,
      mergePlain [] target fields = ([], overlayFields target fields)
  | [], _ => fun _ _ _ => rfl
  | (key, v) :: rest, _ => fun hdepth h target => by
    simp only [areAcceptableFields, Bool.and_eq_true] at h
    obtain ⟨⟨hkey, hv⟩, hrest⟩ := h
    rw [mergePlain, hkey, isAcceptableValue_mono hdepth hv, Bool.and_self, if_pos rfl,
      mergeEntry_eq hv hkey target, overlayFields]
    exact mergePlain_eq hdepth hrest _

end

/-- The providers of a snapshot that are merged. -/
def acceptedProviders : JsValue → List (String × JsValue)
  | .obj fields => limitProviders 0 fields
  | _ => []

theorem limitProviders_sublist (count : ℕ) (fields : List (String × JsValue)) :
    (limitProviders count fields).Sublist fields := by
  induction fields generalizing count with
  | nil => exact List.Sublist.refl _
  | cons e fields ih =>
    rw [limitProviders]
    split_ifs
    · exact List.nil_sublist _
    · exact (ih count).cons _
    · exact (ih (count + 1)).cons_cons _

theorem areAcceptableFields_limitProviders (count : ℕ) (fields : List (String × JsValue)) :
    areAcceptableFields 1 (limitProviders count fields) = true := by
  induction fields generalizing count with
  | nil => rfl
  | cons e fields ih =>
    rw [limitProviders]
    split_ifs with hcap hbad
    · rfl
    · exact ih count
    · simp only [Bool.or_eq_true, Bool.not_eq_true', not_or, Bool.not_eq_false] at hbad
      rw [areAcceptableFields, hbad.1, hbad.2, ih]
      rfl

theorem areAcceptableFields_acceptedProviders (sources : JsValue) :
    areAcceptableFields 1 (acceptedProviders sources) = true := by
  cases sources with
  | obj fields => exact areAcceptableFields_limitProviders 0 fields
  | _ => rfl

theorem wellKeyed_acceptedProviders {sources : JsValue} (h : sources.wellKeyed = true) :
    (JsValue.obj (acceptedProviders sources)).wellKeyed = true := by
  cases sources with
  | obj fields =>
    obtain ⟨hkeys, hbelow⟩ := wellKeyed_obj.1 h
    have hsub := limitProviders_sublist 0 fields
    exact wellKeyed_obj.2 ⟨hkeys.sublist (hsub.map _), fun e he => hbelow e (hsub.subset he)⟩
  | _ => rfl

/-- **What a merge is.** The accepted providers are laid over the live tree. -/
theorem mergeSourceSnapshot_eq {root target : List (String × JsValue)}
    (hroot : root.lookup "sources" = some (.obj target)) (sources : JsValue) :
    mergeSourceSnapshot [] root sources =
      ⟨[], setField root "sources" (.obj (overlayFields target (acceptedProviders sources))),
        (overlayFields target (acceptedProviders sources)).length - target.length⟩ := by
  cases sources with
  | obj fields =>
    rw [mergeSourceSnapshot, hroot]
    simp only [Option.getD_some, recordFields, acceptedProviders,
      mergePlain_eq le_rfl (areAcceptableFields_limitProviders 0 fields)]
  | _ => simp [mergeSourceSnapshot, acceptedProviders, overlayFields, setField_of_lookup hroot]

/-! ## What a merge does -/

/-- Every key on the way to something accepted is acceptable. -/
theorem acceptable_of_shapeAt {path : List String} {v : JsValue} {depth : ℕ} {s : Shape}
    (hv : isAcceptableValue depth v = true) (h : shapeAt path v = some s) :
    ∀ key ∈ path, isAcceptableKey key = true := by
  induction path generalizing v depth with
  | nil => simp
  | cons key path ih =>
    cases v with
    | obj fields =>
      rw [isAcceptableValue, Bool.and_eq_true] at hv
      obtain ⟨w, hlookup, hw⟩ := Option.bind_eq_some_iff.1 h
      obtain ⟨hkey, hbelow⟩ := areAcceptableFields_iff.1 hv.2 (key, w) (mem_of_lookup hlookup)
      exact List.forall_mem_cons.2 ⟨hkey, ih hbelow hw⟩
    | _ => cases h

theorem acceptable_of_shapeAt_fields {path : List String} {fields : List (String × JsValue)}
    {s : Shape} (hfields : areAcceptableFields 1 fields = true)
    (h : shapeAt path (.obj fields) = some s) : ∀ key ∈ path, isAcceptableKey key = true := by
  cases path with
  | nil => exact fun _ hkey => nomatch hkey
  | cons key path =>
    obtain ⟨w, hlookup, hw⟩ := Option.bind_eq_some_iff.1 h
    obtain ⟨hkey, hbelow⟩ := areAcceptableFields_iff.1 hfields (key, w) (mem_of_lookup hlookup)
    exact List.forall_mem_cons.2 ⟨hkey, acceptable_of_shapeAt hbelow hw⟩

/-- The accepted providers of two snapshots have no comparable leaves. -/
def DisjointSnapshots (sources sources' : JsValue) : Prop :=
  ∀ p q, p ≠ [] → q ≠ [] → IsLeafPath (.obj (acceptedProviders sources)) p →
    IsLeafPath (.obj (acceptedProviders sources')) q → ¬ Comparable p q

/-- What merging a snapshot into the live tree `target` at `root.sources` does and does not do. -/
structure ContainedMerge (root target : List (String × JsValue)) (sources : JsValue) : Prop where
  /-- `Object.prototype` is given nothing. -/
  prototype : (mergeSourceSnapshot [] root sources).added = []
  /-- Only own properties are read and written: the accepted providers are laid over the tree. -/
  overlay : (mergeSourceSnapshot [] root sources).root.lookup "sources" =
    some (overlay (some (.obj target)) (.obj (acceptedProviders sources)))
  /-- Nothing outside of `root.sources` is written. -/
  outside : ∀ key path, key ≠ "sources" →
    shapeAt (key :: path) (.obj (mergeSourceSnapshot [] root sources).root) =
      shapeAt (key :: path) (.obj root)
  /-- What is different has been written at acceptable keys, or is gone with a value above that
  has been written at acceptable keys. -/
  acceptable : ∀ path, shapeAt ("sources" :: path) (.obj (mergeSourceSnapshot [] root sources).root) ≠
      shapeAt ("sources" :: path) (.obj root) →
    (shapeAt ("sources" :: path) (.obj (mergeSourceSnapshot [] root sources).root) =
        shapeAt path (.obj (acceptedProviders sources)) ∧ ∀ key ∈ path, isAcceptableKey key = true) ∨
      (shapeAt ("sources" :: path) (.obj (mergeSourceSnapshot [] root sources).root) = none ∧
        ∃ above, above <+: path ∧ (∀ key ∈ above, isAcceptableKey key = true) ∧
          ∃ a, shapeAt above (.obj (acceptedProviders sources)) = some (.atom a))
  /-- What no accepted leaf is comparable to is unchanged. -/
  unaddressed : ∀ path, path ≠ [] →
    (∀ leaf, leaf ≠ [] → IsLeafPath (.obj (acceptedProviders sources)) leaf →
      ¬ Comparable path leaf) →
    shapeAt ("sources" :: path) (.obj (mergeSourceSnapshot [] root sources).root) =
      shapeAt ("sources" :: path) (.obj root)
  /-- The same snapshot again changes nothing. -/
  again : mergeSourceSnapshot [] (mergeSourceSnapshot [] root sources).root sources =
    ⟨[], (mergeSourceSnapshot [] root sources).root, 0⟩
  /-- DisjointSnapshots snapshots may be merged in either order. -/
  order : ∀ sources', sources'.wellKeyed = true → DisjointSnapshots sources sources' →
    SameTree
      (.obj (mergeSourceSnapshot [] (mergeSourceSnapshot [] root sources).root sources').root)
      (.obj (mergeSourceSnapshot [] (mergeSourceSnapshot [] root sources').root sources).root)

section Merge

variable {root target : List (String × JsValue)} {sources : JsValue}

theorem lookup_sources_merge (hroot : root.lookup "sources" = some (.obj target)) :
    (mergeSourceSnapshot [] root sources).root.lookup "sources" =
      some (.obj (overlayFields target (acceptedProviders sources))) := by
  rw [mergeSourceSnapshot_eq hroot, lookup_setField, if_pos rfl]

/-- The tree below `root.sources` after a merge. -/
theorem shapeAt_sources_merge (hroot : root.lookup "sources" = some (.obj target))
    (path : List String) :
    shapeAt ("sources" :: path) (.obj (mergeSourceSnapshot [] root sources).root) =
      shapeAt path (JsValue.overlay (some (.obj target)) (.obj (acceptedProviders sources))) := by
  rw [shapeAt, lookup_sources_merge hroot]
  rfl

theorem shapeAt_sources (hroot : root.lookup "sources" = some (.obj target))
    (path : List String) : shapeAt ("sources" :: path) (.obj root) = shapeAt path (.obj target) := by
  rw [shapeAt, hroot]
  rfl

theorem shapeAt_outside_merge (hroot : root.lookup "sources" = some (.obj target)) {key : String}
    (hkey : key ≠ "sources") (path : List String) :
    shapeAt (key :: path) (.obj (mergeSourceSnapshot [] root sources).root) =
      shapeAt (key :: path) (.obj root) := by
  rw [shapeAt, mergeSourceSnapshot_eq hroot, lookup_setField, if_neg hkey]
  rfl

theorem merge_acceptable (hroot : root.lookup "sources" = some (.obj target))
    (hkeyed : sources.wellKeyed = true) (path : List String)
    (h : shapeAt ("sources" :: path) (.obj (mergeSourceSnapshot [] root sources).root) ≠
      shapeAt ("sources" :: path) (.obj root)) :
    (shapeAt ("sources" :: path) (.obj (mergeSourceSnapshot [] root sources).root) =
        shapeAt path (.obj (acceptedProviders sources)) ∧ ∀ key ∈ path, isAcceptableKey key = true) ∨
      (shapeAt ("sources" :: path) (.obj (mergeSourceSnapshot [] root sources).root) = none ∧
        ∃ above, above <+: path ∧ (∀ key ∈ above, isAcceptableKey key = true) ∧
          ∃ a, shapeAt above (.obj (acceptedProviders sources)) = some (.atom a)) := by
  have haccepted := areAcceptableFields_acceptedProviders sources
  rw [shapeAt_sources_merge hroot, shapeAt_sources hroot,
    shapeAt_overlay (wellKeyed_acceptedProviders hkeyed), Option.bind_some] at h
  rw [shapeAt_sources_merge hroot, shapeAt_overlay (wellKeyed_acceptedProviders hkeyed),
    Option.bind_some]
  cases hs : shapeAt path (.obj (acceptedProviders sources)) with
  | some s => exact Or.inl ⟨rfl, acceptable_of_shapeAt_fields haccepted hs⟩
  | none =>
    cases hclosed : closedAt path (.obj (acceptedProviders sources)) with
    | true =>
      obtain ⟨above, hprefix, a, ha⟩ := closedAt_iff.1 hclosed
      exact Or.inr ⟨rfl, above, hprefix, acceptable_of_shapeAt_fields haccepted ha, a, ha⟩
    | false =>
      rw [hs, hclosed] at h
      exact absurd rfl h

theorem merge_again (hroot : root.lookup "sources" = some (.obj target))
    (hkeyed : sources.wellKeyed = true) :
    mergeSourceSnapshot [] (mergeSourceSnapshot [] root sources).root sources =
      ⟨[], (mergeSourceSnapshot [] root sources).root, 0⟩ := by
  have hidem := overlay_idem (wellKeyed_acceptedProviders hkeyed) (some (.obj target))
  simp only [JsValue.overlay, JsValue.obj.injEq] at hidem
  rw [mergeSourceSnapshot_eq (lookup_sources_merge hroot), hidem,
    setField_of_lookup (lookup_sources_merge hroot), Int.sub_self]

theorem merge_order (hroot : root.lookup "sources" = some (.obj target))
    (hkeyed : sources.wellKeyed = true) {sources' : JsValue} (hkeyed' : sources'.wellKeyed = true)
    (hdisjoint : DisjointSnapshots sources sources') :
    SameTree
      (.obj (mergeSourceSnapshot [] (mergeSourceSnapshot [] root sources).root sources').root)
      (.obj (mergeSourceSnapshot [] (mergeSourceSnapshot [] root sources').root sources).root) := by
  intro path
  cases path with
  | nil => rfl
  | cons key path =>
    by_cases hkey : key = "sources"
    · subst hkey
      rw [shapeAt_sources_merge (lookup_sources_merge hroot),
        shapeAt_sources_merge (lookup_sources_merge hroot)]
      exact overlay_comm (wellKeyed_acceptedProviders hkeyed)
        (wellKeyed_acceptedProviders hkeyed') hdisjoint (some (.obj target)) path
    · rw [shapeAt_outside_merge (lookup_sources_merge hroot) hkey,
        shapeAt_outside_merge hroot hkey,
        shapeAt_outside_merge (lookup_sources_merge hroot) hkey,
        shapeAt_outside_merge hroot hkey]

end Merge

/-- **Containment.** A merge writes below `root.sources` only, at acceptable keys, through own
properties; it is idempotent, and disjoint snapshots may come in either order. -/
theorem containedMerge {root target : List (String × JsValue)} {sources : JsValue}
    (hroot : root.lookup "sources" = some (.obj target)) (hkeyed : sources.wellKeyed = true) :
    ContainedMerge root target sources where
  prototype := by rw [mergeSourceSnapshot_eq hroot]
  overlay := lookup_sources_merge hroot
  outside _ path hkey := shapeAt_outside_merge hroot hkey path
  acceptable := merge_acceptable hroot hkeyed
  unaddressed path hpath h := by
    rw [shapeAt_sources_merge hroot, shapeAt_sources hroot, shapeAt_overlay_of_not_comparable
      (wellKeyed_acceptedProviders hkeyed) _ hpath h, Option.bind_some]
  again := merge_again hroot hkeyed
  order _ hkeyed' hdisjoint := merge_order hroot hkeyed hkeyed' hdisjoint

/-- A provider, and two that are rejected. -/
def pollutingSnapshot : JsValue :=
  .obj [("gps", .obj [("label", .str "gps")]),
    ("__proto__", .obj [("polluted", .bool true)]),
    ("bad", .obj [("constructor", .obj [("prototype", .obj [("polluted", .bool true)])])])]

theorem containedMerge_pollutingSnapshot :
    ContainedMerge [("self", .str "urn"), ("sources", .obj [("gps", .obj [("type", .str "NMEA")])])]
        [("gps", .obj [("type", .str "NMEA")])] pollutingSnapshot ∧
      mergeSourceSnapshot []
          [("self", .str "urn"), ("sources", .obj [("gps", .obj [("type", .str "NMEA")])])]
          pollutingSnapshot =
        ⟨[], [("self", .str "urn"), ("sources",
          .obj [("gps", .obj [("type", .str "NMEA"), ("label", .str "gps")])])], 0⟩ :=
  ⟨containedMerge rfl (by decide +kernel), by decide +kernel⟩

end EdgeLink
