import EdgeLink.Codec.JsValue
import EdgeLink.Foundations.Lists

/-!
# Trees of values

A JavaScript object has every key once. The lists of properties that stand for objects here are
those of a real object where the tree is `wellKeyed`. What a tree has at a path is its `shapeAt`
there, and trees with the same shapes are the same up to the order of their keys.

`overlay` lays one tree over another: objects are merged key by key, everything else is replaced.

* `shapeAt_overlay`: what is at a path comes from the upper tree, and from the lower one where the
  upper one has nothing there and no leaf above.
* `overlay_idem`: laying a tree over a second time changes nothing.
* `overlay_comm`: trees without comparable leaves may be laid over in either order.
* `Within.foldl_overlay`: parts of a tree laid over each other have what any of them has.
-/

namespace EdgeLink

/-- The names of the members of `Object.prototype`. -/
def objectPrototypeMembers : List String :=
  ["constructor", "__defineGetter__", "__defineSetter__", "hasOwnProperty", "__lookupGetter__",
    "__lookupSetter__", "isPrototypeOf", "propertyIsEnumerable", "toString", "valueOf", "__proto__",
    "toLocaleString"]

namespace JsValue

mutual

/-- Every object of the tree has every key once. -/
def wellKeyed : JsValue → Bool
  | arr items => wellKeyedItems items
  | obj fields => decide (fields.map Prod.fst).Nodup && wellKeyedFields fields
  | _ => true

def wellKeyedItems : List JsValue → Bool
  | [] => true
  | v :: rest => v.wellKeyed && wellKeyedItems rest

def wellKeyedFields : List (String × JsValue) → Bool
  | [] => true
  | (_, v) :: rest => v.wellKeyed && wellKeyedFields rest

end

theorem wellKeyedFields_iff {fields : List (String × JsValue)} :
    wellKeyedFields fields = true ↔ ∀ e ∈ fields, e.2.wellKeyed = true := by
  induction fields with
  | nil => simp [wellKeyedFields]
  | cons e fields ih => simp [wellKeyedFields, ih]

theorem wellKeyed_obj {fields : List (String × JsValue)} :
    (obj fields).wellKeyed = true ↔
      (fields.map Prod.fst).Nodup ∧ ∀ e ∈ fields, e.2.wellKeyed = true := by
  rw [wellKeyed, Bool.and_eq_true, decide_eq_true_iff, wellKeyedFields_iff]

/-! ## Shapes -/

/-- What a tree has at a path: an object, or a value that is none. -/
inductive Shape where
  | record
  | atom (v : JsValue)
  deriving DecidableEq

/-- The shape at a path. -/
def shapeAt : List String → JsValue → Option Shape
  | [], obj _ => some .record
  | [], v => some (.atom v)
  | key :: path, obj fields => (fields.lookup key).bind (shapeAt path)
  | _ :: _, _ => none

/-- Trees that are the same up to the order of keys. -/
def SameTree (v w : JsValue) : Prop := ∀ path, shapeAt path v = shapeAt path w

/-- Whether a value that is no object is at a path or above. -/
def closedAt : List String → JsValue → Bool
  | key :: path, obj fields => (fields.lookup key).elim false (closedAt path)
  | [], obj _ => false
  | _, _ => true

/-- A value that is no object, or an empty object. -/
def IsLeafPath (v : JsValue) (path : List String) : Prop :=
  (∃ a, shapeAt path v = some (.atom a)) ∨
    (shapeAt path v = some .record ∧ ∀ key, shapeAt (path ++ [key]) v = none)

/-- The value at a path where there is a leaf. -/
def leafValueAt : List String → JsValue → Option JsValue
  | [], obj (_ :: _) => none
  | [], v => some v
  | key :: path, obj fields => (fields.lookup key).bind (leafValueAt path)
  | _ :: _, _ => none

/-- The value that a tree has at a path where it has no object. -/
def Shape.value? : Shape → Option JsValue
  | record => none
  | atom v => some v

theorem exists_shapeAt_nil (v : JsValue) : ∃ s, shapeAt [] v = some s := by
  cases v <;> exact ⟨_, rfl⟩

theorem isSome_shapeAt_cons {key : String} {path : List String} {v : JsValue} :
    (shapeAt (key :: path) v).isSome ↔
      ∃ fields w, v = obj fields ∧ fields.lookup key = some w ∧ (shapeAt path w).isSome := by
  cases v with
  | obj fields => cases hlookup : fields.lookup key <;> simp [shapeAt, hlookup]
  | _ => simp [shapeAt]

theorem isLeafPath_cons {key : String} {path : List String} {fields : List (String × JsValue)} :
    IsLeafPath (obj fields) (key :: path) ↔
      ∃ v, fields.lookup key = some v ∧ IsLeafPath v path := by
  cases hlookup : fields.lookup key <;> simp [IsLeafPath, shapeAt, hlookup]

theorem isLeafPath_iff {path : List String} {v : JsValue} :
    IsLeafPath v path ↔ (leafValueAt path v).isSome := by
  induction path generalizing v with
  | nil =>
    cases v with
    | obj fields =>
      cases fields with
      | nil => exact iff_of_true (Or.inr ⟨rfl, fun _ => rfl⟩) rfl
      | cons e fields =>
        refine iff_of_false ?_ (by simp [leafValueAt])
        rintro (⟨a, ha⟩ | ⟨-, hbelow⟩)
        · nomatch ha
        · obtain ⟨key, w⟩ := e
          obtain ⟨s, hs⟩ := exists_shapeAt_nil w
          simpa [shapeAt, hs] using hbelow key
    | _ => exact iff_of_true (Or.inl ⟨_, rfl⟩) rfl
  | cons key path ih =>
    cases v with
    | obj fields =>
      rw [isLeafPath_cons, leafValueAt]
      cases hlookup : fields.lookup key with
      | none => simp
      | some w => simp [ih]
    | _ => exact iff_of_false (by simp [IsLeafPath, shapeAt]) (by simp [leafValueAt])

/-- The shape at a leaf. -/
theorem shapeAt_of_leafValueAt {path : List String} {v w : JsValue}
    (h : leafValueAt path v = some w) : shapeAt path v = shapeAt [] w := by
  induction path generalizing v with
  | nil =>
    cases v with
    | obj fields =>
      cases fields with
      | nil => rw [← Option.some.inj h]
      | cons e fields => nomatch h
    | _ => rw [← Option.some.inj h]
  | cons key path ih =>
    cases v with
    | obj fields =>
      obtain ⟨v, hlookup, hv⟩ := Option.bind_eq_some_iff.1 h
      exact (congrArg (·.bind (shapeAt path)) hlookup).trans (ih hv)
    | _ => nomatch h

/-- Above something there are objects only. -/
theorem shapeAt_of_append {above : List String} {v : JsValue} (below : List String)
    (hbelow : below ≠ []) (h : (shapeAt (above ++ below) v).isSome) :
    shapeAt above v = some .record := by
  induction above generalizing v with
  | nil =>
    obtain ⟨key, below, rfl⟩ := List.exists_cons_of_ne_nil hbelow
    obtain ⟨fields, w, rfl, -, -⟩ := isSome_shapeAt_cons.1 h
    rfl
  | cons key above ih =>
    obtain ⟨fields, w, rfl, hlookup, hw⟩ := isSome_shapeAt_cons.1 h
    rw [shapeAt, hlookup, Option.bind_some]
    exact ih hw

/-- What is no object has nothing below, and every object in it has every key once. -/
theorem atom_spec {path : List String} {v a : JsValue} (hv : v.wellKeyed = true)
    (h : shapeAt path v = some (.atom a)) :
    a.wellKeyed = true ∧ shapeAt [] a = some (.atom a) ∧
      ∀ key below, shapeAt (key :: below) a = none := by
  induction path generalizing v with
  | nil =>
    cases v with
    | obj fields => nomatch h
    | _ =>
      obtain rfl := Shape.atom.inj (Option.some.inj h)
      exact ⟨hv, rfl, fun _ _ => rfl⟩
  | cons key path ih =>
    cases v with
    | obj fields =>
      obtain ⟨w, hlookup, hw⟩ := Option.bind_eq_some_iff.1 h
      exact ih ((wellKeyed_obj.1 hv).2 (key, w) (mem_of_lookup hlookup)) hw
    | _ => nomatch h

theorem closedAt_iff {path : List String} {v : JsValue} : closedAt path v = true ↔
    ∃ above, above <+: path ∧ ∃ a, shapeAt above v = some (.atom a) := by
  induction path generalizing v with
  | nil => cases v <;> simp [closedAt, shapeAt]
  | cons key path ih =>
    cases v with
    | obj fields =>
      cases hlookup : fields.lookup key with
      | none =>
        refine iff_of_false (by simp [closedAt, hlookup]) ?_
        rintro ⟨above, hprefix, a, ha⟩
        rcases List.prefix_cons_iff.1 hprefix with rfl | ⟨above, rfl, -⟩
        · simp [shapeAt] at ha
        · simp [shapeAt, hlookup] at ha
      | some w =>
        rw [closedAt, hlookup, Option.elim_some, ih]
        constructor
        · rintro ⟨above, hprefix, a, ha⟩
          exact ⟨key :: above, List.cons_prefix_cons.2 ⟨rfl, hprefix⟩, a, by
            simpa [shapeAt, hlookup] using ha⟩
        · rintro ⟨above, hprefix, a, ha⟩
          rcases List.prefix_cons_iff.1 hprefix with rfl | ⟨above, rfl, hbelow⟩
          · simp [shapeAt] at ha
          · exact ⟨above, hbelow, a, by simpa [shapeAt, hlookup] using ha⟩
    | _ => exact iff_of_true rfl ⟨[], List.nil_prefix, _, rfl⟩

/-- What has no value at or above a path that is no object has nothing but objects there. -/
theorem shapeAt_eq_record {path : List String} {v : JsValue} (h : closedAt path v = false)
    {s : Shape} (hs : shapeAt path v = some s) : s = .record := by
  cases s with
  | record => rfl
  | atom a =>
    rw [closedAt_iff.2 ⟨path, List.prefix_rfl, a, hs⟩] at h
    nomatch h

mutual

/-- Everything in a tree has a leaf below or is one. -/
theorem exists_leaf : ∀ (v : JsValue) {path : List String} {s : Shape},
    shapeAt path v = some s → ∃ leaf, path <+: leaf ∧ IsLeafPath v leaf
  | .obj fields, path, s => fun h => by
    have hbelow := exists_leaf_fields fields
    have hkey : ∀ {key : String} {w : JsValue} {path : List String} {s : Shape},
        fields.lookup key = some w → shapeAt path w = some s →
          ∃ leaf, key :: path <+: leaf ∧ IsLeafPath (.obj fields) leaf := by
      intro key w path s hlookup hs
      obtain ⟨leaf, hprefix, hleaf⟩ := hbelow (key, w) (mem_of_lookup hlookup) hs
      refine ⟨key :: leaf, List.cons_prefix_cons.2 ⟨rfl, hprefix⟩, ?_⟩
      simpa [IsLeafPath, shapeAt, hlookup] using hleaf
    cases path with
    | nil =>
      cases fields with
      | nil => exact ⟨[], List.prefix_rfl, Or.inr ⟨rfl, fun _ => rfl⟩⟩
      | cons e rest =>
        obtain ⟨s, hs⟩ : ∃ s, shapeAt [] e.2 = some s := by cases e.2 <;> exact ⟨_, rfl⟩
        obtain ⟨leaf, -, hleaf⟩ := hkey (List.lookup_cons_self ..) hs
        exact ⟨leaf, List.nil_prefix, hleaf⟩
    | cons key path =>
      obtain ⟨w, hlookup, hs⟩ := Option.bind_eq_some_iff.1 h
      exact hkey hlookup hs
  | .undefined, path, s | .null, path, s | .bool _, path, s | .num _, path, s | .str _, path, s
  | .arr _, path, s => fun h => by
    cases path with
    | nil => exact ⟨[], List.prefix_rfl, Or.inl ⟨_, rfl⟩⟩
    | cons key path => nomatch h

theorem exists_leaf_fields : ∀ (fields : List (String × JsValue)), ∀ e ∈ fields,
    ∀ {path : List String} {s : Shape}, shapeAt path e.2 = some s →
      ∃ leaf, path <+: leaf ∧ IsLeafPath e.2 leaf
  | [] => fun _ he => nomatch he
  | e :: rest => List.forall_mem_cons.2 ⟨exists_leaf e.2, exists_leaf_fields rest⟩

end

/-! ## Overlays -/

mutual

/-- A tree laid over what is there. -/
def overlay (current? : Option JsValue) : JsValue → JsValue
  | obj fields =>
    match current? with
    | some (obj current) => obj (overlayFields current fields)
    | _ => obj fields
  | v => v

def overlayFields (current : List (String × JsValue)) :
    List (String × JsValue) → List (String × JsValue)
  | [] => current
  | (key, v) :: rest =>
    overlayFields (setField current key (overlay (current.lookup key) v)) rest

end

theorem overlay_none (v : JsValue) : overlay none v = v := by
  cases v <;> rfl

theorem lookup_overlayFields {current fields : List (String × JsValue)}
    (hkeys : (fields.map Prod.fst).Nodup) (key : String) :
    (overlayFields current fields).lookup key =
      match fields.lookup key with
      | some v => some (overlay (current.lookup key) v)
      | none => current.lookup key := by
  induction fields generalizing current with
  | nil => rfl
  | cons e fields ih =>
    obtain ⟨k, v⟩ := e
    obtain ⟨hk, hkeys⟩ := List.nodup_cons.1 hkeys
    rw [overlayFields, ih hkeys, List.lookup_cons, lookup_setField]
    by_cases hkey : key = k
    · subst hkey
      have hnone : fields.lookup key = none := by
        rw [← Option.not_isSome_iff_eq_none, lookup_isSome_iff]
        exact hk
      simp [hnone]
    · simp [hkey, beq_false_of_ne hkey]

/-- An object is laid over an object, or takes the place of something with nothing below. -/
theorem overlay_obj_cases (current? : Option JsValue) (fields : List (String × JsValue)) :
    (∃ current, current? = some (obj current) ∧
      overlay current? (obj fields) = obj (overlayFields current fields)) ∨
    ((∀ key path, current?.bind (shapeAt (key :: path)) = none) ∧
      overlay current? (obj fields) = obj fields) := by
  cases current? with
  | none => exact Or.inr ⟨fun _ _ => rfl, rfl⟩
  | some w =>
    cases w with
    | obj current => exact Or.inl ⟨current, rfl, rfl⟩
    | _ => exact Or.inr ⟨fun _ _ => rfl, rfl⟩

/-- **The shape of an overlay.** -/
theorem shapeAt_overlay {v : JsValue} (hv : v.wellKeyed = true) (current? : Option JsValue)
    (path : List String) : shapeAt path (overlay current? v) =
      (shapeAt path v).or (if closedAt path v then none else current?.bind (shapeAt path)) := by
  induction path generalizing current? v with
  | nil =>
    cases v with
    | obj fields =>
      rcases overlay_obj_cases current? fields with ⟨current, -, h⟩ | ⟨-, h⟩ <;> rw [h] <;> rfl
    | _ => rfl
  | cons key path ih =>
    cases v with
    | obj fields =>
      obtain ⟨hkeys, hbelow⟩ := wellKeyed_obj.1 hv
      rcases overlay_obj_cases current? fields with ⟨current, rfl, h⟩ | ⟨hnone, h⟩
      · rw [h, shapeAt, lookup_overlayFields hkeys]
        cases hlookup : fields.lookup key with
        | none => simp [shapeAt, closedAt, hlookup]
        | some w =>
          have hw := hbelow (key, w) (mem_of_lookup hlookup)
          simp [shapeAt, closedAt, hlookup, ih hw]
      · rw [h, hnone, ite_self, Option.or_none]
    | _ => rfl

/-- Where a tree is already, laying it over changes nothing. -/
theorem overlayFields_eq_self {current fields : List (String × JsValue)}
    (h : ∀ e ∈ fields, ∃ v, current.lookup e.1 = some v ∧ overlay (some v) e.2 = v) :
    overlayFields current fields = current := by
  induction fields with
  | nil => rfl
  | cons e fields ih =>
    obtain ⟨v, hlookup, hv⟩ := h e List.mem_cons_self
    rw [overlayFields, hlookup, hv, setField_of_lookup hlookup]
    exact ih fun e he => h e (List.mem_cons_of_mem _ he)

mutual

/-- Laying a tree over a second time changes nothing. -/
theorem overlay_idem : ∀ {v : JsValue}, v.wellKeyed = true → ∀ current?,
    overlay (some (overlay current? v)) v = overlay current? v
  | .obj fields => fun hv current? => by
    obtain ⟨hkeys, hbelow⟩ := wellKeyed_obj.1 hv
    have hidem := overlay_idem_fields hbelow
    rcases overlay_obj_cases current? fields with ⟨current, -, h⟩ | ⟨-, h⟩
    · rw [h, overlay, overlayFields_eq_self]
      intro e he
      refine ⟨_, ?_, hidem e he (current.lookup e.1)⟩
      rw [lookup_overlayFields hkeys, (lookup_eq_some_iff hkeys).2 he]
    · rw [h, overlay, overlayFields_eq_self]
      intro e he
      have hself := hidem e he none
      rw [overlay_none] at hself
      exact ⟨e.2, (lookup_eq_some_iff hkeys).2 he, hself⟩
  | .undefined | .null | .bool _ | .num _ | .str _ | .arr _ => fun _ _ => rfl

theorem overlay_idem_fields : ∀ {fields : List (String × JsValue)},
    (∀ e ∈ fields, e.2.wellKeyed = true) → ∀ e ∈ fields, ∀ current?,
      overlay (some (overlay current? e.2)) e.2 = overlay current? e.2
  | [] => fun _ _ he => nomatch he
  | e :: _ => fun h => List.forall_mem_cons.2 ⟨overlay_idem (h e List.mem_cons_self),
      overlay_idem_fields fun e he => h e (List.mem_cons_of_mem _ he)⟩

end

/-! ## Comparable paths -/

/-- One path leads to the other. -/
def Comparable (p q : List String) : Prop := p <+: q ∨ q <+: p

section Comparable

variable {fields fields' : List (String × JsValue)} {path : List String}

/-- What is not empty has a leaf of its own. -/
theorem exists_comparable_leaf {s : Shape} (hpath : path ≠ [])
    (h : shapeAt path (obj fields) = some s) :
    ∃ leaf, leaf ≠ [] ∧ IsLeafPath (obj fields) leaf ∧ path <+: leaf := by
  obtain ⟨leaf, hprefix, hleaf⟩ := exists_leaf _ h
  refine ⟨leaf, ?_, hleaf, hprefix⟩
  rintro rfl
  exact hpath (List.prefix_nil.1 hprefix)

theorem exists_leaf_of_closedAt (h : closedAt path (obj fields) = true) :
    ∃ leaf, leaf ≠ [] ∧ IsLeafPath (obj fields) leaf ∧ leaf <+: path := by
  obtain ⟨above, hprefix, a, ha⟩ := closedAt_iff.1 h
  refine ⟨above, ?_, Or.inl ⟨a, ha⟩, hprefix⟩
  rintro rfl
  nomatch ha

/-- A path that no leaf of the upper tree is comparable to keeps what it has. -/
theorem shapeAt_overlay_of_not_comparable (hv : (obj fields).wellKeyed = true)
    (current? : Option JsValue) (hpath : path ≠ [])
    (h : ∀ leaf, leaf ≠ [] → IsLeafPath (obj fields) leaf → ¬ Comparable path leaf) :
    shapeAt path (overlay current? (obj fields)) = current?.bind (shapeAt path) := by
  rw [shapeAt_overlay hv]
  cases hs : shapeAt path (obj fields) with
  | some s =>
    obtain ⟨leaf, hne, hleaf, hprefix⟩ := exists_comparable_leaf hpath hs
    exact absurd (Or.inl hprefix) (h leaf hne hleaf)
  | none =>
    cases hclosed : closedAt path (obj fields) with
    | true =>
      obtain ⟨leaf, hne, hleaf, hprefix⟩ := exists_leaf_of_closedAt hclosed
      exact absurd (Or.inr hprefix) (h leaf hne hleaf)
    | false => rfl

/-- Where one of two objects without comparable leaves has something, the other one has objects
only, and is closed nowhere above. -/
theorem shapeAt_of_not_comparable (hpath : path ≠ [])
    (h : ∀ p q, p ≠ [] → q ≠ [] → IsLeafPath (obj fields) p → IsLeafPath (obj fields') q →
      ¬ Comparable p q) {s : Shape} (hs : shapeAt path (obj fields) = some s) :
    closedAt path (obj fields') = false ∧
      ∀ s', shapeAt path (obj fields') = some s' → s' = .record := by
  obtain ⟨leaf, hne, hleaf, hprefix⟩ := exists_comparable_leaf hpath hs
  have hopen : closedAt path (obj fields') = false := by
    by_contra hclosed
    obtain ⟨leaf', hne', hleaf', hprefix'⟩ :=
      exists_leaf_of_closedAt (Bool.not_eq_false _ ▸ hclosed)
    exact h leaf leaf' hne hne' hleaf hleaf' (Or.inr (hprefix'.trans hprefix))
  exact ⟨hopen, fun s' => shapeAt_eq_record hopen⟩

theorem not_comparable_symm
    (h : ∀ p q, p ≠ [] → q ≠ [] → IsLeafPath (obj fields) p → IsLeafPath (obj fields') q →
      ¬ Comparable p q) :
    ∀ p q, p ≠ [] → q ≠ [] → IsLeafPath (obj fields') p → IsLeafPath (obj fields) q →
      ¬ Comparable p q :=
  fun p q hp hq hleaf hleaf' hcomp => h q p hq hp hleaf' hleaf hcomp.symm

/-- **Order independence.** Two objects without comparable leaves may be laid over a tree in either
order. -/
theorem overlay_comm (hv : (obj fields).wellKeyed = true) (hv' : (obj fields').wellKeyed = true)
    (h : ∀ p q, p ≠ [] → q ≠ [] → IsLeafPath (obj fields) p → IsLeafPath (obj fields') q →
      ¬ Comparable p q) (current? : Option JsValue) :
    SameTree (overlay (some (overlay current? (obj fields))) (obj fields'))
      (overlay (some (overlay current? (obj fields'))) (obj fields)) := by
  intro path
  rw [shapeAt_overlay hv', shapeAt_overlay hv, Option.bind_some, Option.bind_some,
    shapeAt_overlay hv, shapeAt_overlay hv']
  by_cases hpath : path = []
  · subst hpath
    rfl
  · cases hs : shapeAt path (obj fields) with
    | some s =>
      obtain ⟨hopen', hrecord'⟩ := shapeAt_of_not_comparable hpath h hs
      cases hs' : shapeAt path (obj fields') with
      | some s' =>
        obtain ⟨-, hrecord⟩ := shapeAt_of_not_comparable hpath (not_comparable_symm h) hs'
        rw [hrecord s hs, hrecord' s' hs']
        rfl
      | none => simp [hopen']
    | none =>
      cases hs' : shapeAt path (obj fields') with
      | some s' =>
        obtain ⟨hopen, -⟩ := shapeAt_of_not_comparable hpath (not_comparable_symm h) hs'
        simp [hopen]
      | none =>
        cases closedAt path (obj fields) <;> cases closedAt path (obj fields') <;> rfl

end Comparable

/-! ## Parts of a tree -/

theorem isSome_of_isLeafPath {path : List String} {v : JsValue} (h : IsLeafPath v path) :
    (shapeAt path v).isSome := by
  rcases h with ⟨a, ha⟩ | ⟨hrecord, -⟩
  · rw [ha]
    rfl
  · rw [hrecord]
    rfl

/-- A leaf has nothing below. -/
theorem eq_nil_of_isLeafPath {path below : List String} {v : JsValue} (hleaf : IsLeafPath v path)
    (h : (shapeAt (path ++ below) v).isSome) : below = [] := by
  cases below with
  | nil => rfl
  | cons key below =>
    rcases hleaf with ⟨a, ha⟩ | ⟨-, hnone⟩
    · rw [shapeAt_of_append _ (List.cons_ne_nil _ _) h] at ha
      nomatch ha
    · cases below with
      | nil =>
        rw [hnone key] at h
        nomatch h
      | cons key' below =>
        rw [List.append_cons] at h
        have hrecord := shapeAt_of_append _ (List.cons_ne_nil _ _) h
        rw [hnone key] at hrecord
        nomatch hrecord

/-- What a tree has is what the other one has there. -/
def Within (tree v : JsValue) : Prop :=
  ∀ path s, shapeAt path v = some s → shapeAt path tree = some s

theorem Within.isLeafPath {tree v : JsValue} (hv : Within tree v) {path : List String}
    (hsome : (shapeAt path v).isSome) (hleaf : IsLeafPath tree path) : IsLeafPath v path := by
  obtain ⟨s, hs⟩ := Option.isSome_iff_exists.1 hsome
  rcases hleaf with ⟨a, ha⟩ | ⟨hrecord, hnone⟩
  · exact Or.inl ⟨a, by rw [hs, ← hv path s hs, ha]⟩
  · refine Or.inr ⟨by rw [hs, ← hv path s hs, hrecord], fun key => ?_⟩
    cases hbelow : shapeAt (path ++ [key]) v with
    | none => rfl
    | some s' =>
      rw [← hnone key, hv _ _ hbelow]

theorem Within.sameTree {tree v : JsValue} (hv : Within tree v)
    (h : ∀ path, (shapeAt path tree).isSome → (shapeAt path v).isSome) : SameTree v tree := by
  intro path
  cases hs : shapeAt path v with
  | some s => exact (hv path s hs).symm
  | none =>
    rw [eq_comm, ← Option.not_isSome_iff_eq_none]
    intro hsome
    have := h path hsome
    rw [hs] at this
    nomatch this

/-- Parts of a tree laid over each other are a part of it, and have what either has. -/
theorem Within.overlay {tree v w : JsValue} (hv : Within tree v) (hw : Within tree w)
    (hkeyed : w.wellKeyed = true) : Within tree (overlay (some v) w) ∧
      ∀ path, (shapeAt path (JsValue.overlay (some v) w)).isSome ↔
        (shapeAt path v).isSome ∨ (shapeAt path w).isSome := by
  have hshape : ∀ path, shapeAt path (JsValue.overlay (some v) w) =
      (shapeAt path w).or (shapeAt path v) := by
    intro path
    rw [shapeAt_overlay hkeyed, Option.bind_some]
    cases hs : shapeAt path w with
    | some s => rfl
    | none =>
      split_ifs with hclosed
      · obtain ⟨above, ⟨below, rfl⟩, a, ha⟩ := closedAt_iff.1 hclosed
        rw [Option.none_or, Option.none_or, eq_comm, ← Option.not_isSome_iff_eq_none]
        intro hsome
        obtain ⟨s, hs'⟩ := Option.isSome_iff_exists.1 hsome
        obtain rfl := eq_nil_of_isLeafPath (v := tree) (Or.inl ⟨a, hw _ _ ha⟩)
          (by rw [hv _ _ hs']; rfl)
        rw [List.append_nil, ha] at hs
        nomatch hs
      · rfl
  refine ⟨fun path s hs => ?_, fun path => ?_⟩
  · rw [hshape] at hs
    rcases Option.or_eq_some_iff.1 hs with hs | ⟨-, hs⟩
    · exact hw path s hs
    · exact hv path s hs
  · rw [hshape, Option.isSome_or, Bool.or_eq_true, or_comm]

/-- Many parts of a tree laid over each other. -/
theorem Within.foldl_overlay {tree v : JsValue} (hv : Within tree v) {ws : List JsValue}
    (hws : ∀ w ∈ ws, w.wellKeyed = true ∧ Within tree w) :
    Within tree (ws.foldl (fun t w => JsValue.overlay (some t) w) v) ∧
      ∀ path, (shapeAt path (ws.foldl (fun t w => JsValue.overlay (some t) w) v)).isSome ↔
        (shapeAt path v).isSome ∨ ∃ w ∈ ws, (shapeAt path w).isSome := by
  induction ws generalizing v with
  | nil => exact ⟨hv, fun path => by simp⟩
  | cons w ws ih =>
    obtain ⟨⟨hkeyed, hw⟩, hws⟩ := List.forall_mem_cons.1 hws
    obtain ⟨hstep, hsome⟩ := hv.overlay hw hkeyed
    obtain ⟨hrest, hsome'⟩ := ih hstep hws
    refine ⟨hrest, fun path => ?_⟩
    rw [List.foldl_cons, hsome', hsome, List.exists_mem_cons_iff, or_assoc]

end JsValue

end EdgeLink
