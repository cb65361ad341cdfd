import EdgeLink.Codec.JsTree
import EdgeLink.Codec.ValuesSnapshot
import EdgeLink.Foundations.Enumeration

/-!
# The leaves of a snapshot

Where the values of a Signal K tree are, and what becomes of them in a snapshot. The properties in
`SK_LEAF_KEYS` belong to a node and lead to no other, and a node with a value or with a `values` map
has nothing below it.

* `enumerates_walkValues`: the walk finds every value of a node once.
* `attributed_collectValuesSnapshot`: a snapshot delivers every value once, as one of the first leaf
  with its group key.
* `complete_iff_distinguishable`: a snapshot attributes all of them right exactly when leaves with
  one group key have one origin, and no leaf names an empty source.
-/

namespace EdgeLink

open JsValue

/-! ## Places -/

/-- The keys that lead to a node, and a source in its `values` map. -/
abbrev LeafPlace := List String × Option String

/-- The leaf at a place below a node, with the path that the walk gives it. -/
def leafAt : List String → Option String → List String → JsValue → Option ValueLeaf
  | [], label?, pathParts, .obj fields =>
    match readLeafFromNode (".".intercalate pathParts) fields,
      recordFields ((JsValue.obj fields).get "values"), label? with
    | some leaf, _, none => some leaf
    | none, some sources, some label =>
      (sources.lookup label).bind fun data =>
        readSourceLeaf (".".intercalate pathParts) (label, data)
    | _, _, _ => none
  | key :: keys, label?, pathParts, .obj fields =>
    match readLeafFromNode (".".intercalate pathParts) fields,
      recordFields ((JsValue.obj fields).get "values") with
    | none, none =>
      if key ∈ SK_LEAF_KEYS then none
      else (fields.lookup key).bind fun node => leafAt keys label? (pathParts ++ [key]) node
    | _, _ => none
  | _, _, _, _ => none

theorem walkFields_eq (pathParts : List String) (fields : List (String × JsValue)) :
    walkFields pathParts fields = fields.flatMap fun e =>
      if e.1 ∈ SK_LEAF_KEYS then [] else walkValues (pathParts ++ [e.1]) e.2 := by
  induction fields with
  | nil => rfl
  | cons e fields ih => rw [walkFields, ih, List.flatMap_cons]

section Walk

variable {pathParts : List String} {fields : List (String × JsValue)}

/-- A node with a value of its own. -/
theorem enumerates_own {leaf : ValueLeaf}
    (hleaf : readLeafFromNode (".".intercalate pathParts) fields = some leaf) :
    Enumerates (fun p : LeafPlace => leafAt p.1 p.2 pathParts (.obj fields)) [leaf] := by
  refine .single (p := ([], none)) (by simp [leafAt, hleaf]) ?_
  rintro ⟨keys, label?⟩ hne
  cases keys with
  | nil =>
    cases label? with
    | none => exact absurd rfl hne
    | some label => simp [leafAt, hleaf]
  | cons key keys => simp [leafAt, hleaf]

theorem wellKeyed_recordFields {v : JsValue} (h : v.wellKeyed = true) :
    (((recordFields v).getD []).map Prod.fst).Nodup ∧
      ∀ e ∈ (recordFields v).getD [], e.2.wellKeyed = true := by
  cases v with
  | obj fields => exact wellKeyed_obj.1 h
  | _ => exact ⟨List.nodup_nil, fun _ he => nomatch he⟩

theorem wellKeyed_get (h : ∀ e ∈ fields, e.2.wellKeyed = true) (name : String) :
    ((JsValue.obj fields).get name).wellKeyed = true := by
  rw [JsValue.get]
  cases hlookup : fields.lookup name with
  | none => rfl
  | some v => exact h (name, v) (mem_of_lookup hlookup)

/-- A node with a `values` map. -/
theorem enumerates_sources {sources : List (String × JsValue)}
    (hleaf : readLeafFromNode (".".intercalate pathParts) fields = none)
    (hsources : recordFields ((JsValue.obj fields).get "values") = some sources)
    (hkeys : (sources.map Prod.fst).Nodup) :
    Enumerates (fun p : LeafPlace => leafAt p.1 p.2 pathParts (.obj fields))
      (sources.filterMap (readSourceLeaf (".".intercalate pathParts))) := by
  rw [List.filterMap_eq_flatMap_toList]
  refine (Enumerates.lookup
    (fun label data (_ : Unit) => readSourceLeaf (".".intercalate pathParts) (label, data))
    (fun label data => (readSourceLeaf (".".intercalate pathParts) (label, data)).toList) hkeys
    fun _ _ => .toList _).embed (e := fun q => (([], some q.1) : LeafPlace)) ?_ ?_ ?_
  · rintro ⟨label, ⟨⟩⟩ ⟨label', ⟨⟩⟩ heq
    simpa using heq
  · rintro ⟨label, ⟨⟩⟩
    simp [leafAt, hleaf, hsources]
  · rintro ⟨keys, label?⟩ hne
    cases keys with
    | nil =>
      cases label? with
      | none => simp [leafAt, hleaf, hsources]
      | some label => exact absurd rfl (hne (label, ()))
    | cons key keys => simp [leafAt, hleaf, hsources]

/-- A container. -/
theorem enumerates_container
    (hleaf : readLeafFromNode (".".intercalate pathParts) fields = none)
    (hsources : recordFields ((JsValue.obj fields).get "values") = none)
    (hkeys : (fields.map Prod.fst).Nodup)
    (h : ∀ e ∈ fields, ∀ pathParts,
      Enumerates (fun p : LeafPlace => leafAt p.1 p.2 pathParts e.2) (walkValues pathParts e.2)) :
    Enumerates (fun p : LeafPlace => leafAt p.1 p.2 pathParts (.obj fields))
      (walkFields pathParts fields) := by
  rw [walkFields_eq]
  refine (Enumerates.lookup
    (fun key node (p : LeafPlace) =>
      if key ∈ SK_LEAF_KEYS then none else leafAt p.1 p.2 (pathParts ++ [key]) node)
    (fun key node => if key ∈ SK_LEAF_KEYS then [] else walkValues (pathParts ++ [key]) node) hkeys
    fun e he => ?_).embed (e := fun q => ((q.1 :: q.2.1, q.2.2) : LeafPlace)) ?_ ?_ ?_
  · split_ifs
    · exact .empty fun _ => rfl
    · exact h e he _
  · rintro ⟨key, keys, label?⟩ ⟨key', keys', label?'⟩ heq
    simp only [Prod.mk.injEq, List.cons.injEq] at heq
    obtain ⟨⟨rfl, rfl⟩, rfl⟩ := heq
    rfl
  · rintro ⟨key, keys, label?⟩
    simp only [leafAt, hleaf, hsources]
    split_ifs
    · simp
    · simp
  · rintro ⟨keys, label?⟩ hne
    cases keys with
    | nil => cases label? <;> simp [leafAt, hleaf, hsources]
    | cons key keys => exact absurd rfl (hne (key, keys, label?))

mutual

theorem enumerates_walkValues : ∀ {node : JsValue}, node.wellKeyed = true → ∀ pathParts,
    Enumerates (fun p : LeafPlace => leafAt p.1 p.2 pathParts node) (walkValues pathParts node)
  | .obj fields => fun h pathParts => by
    obtain ⟨hkeys, hbelow⟩ := wellKeyed_obj.1 h
    rw [walkValues]
    split
    next leaf hleaf => exact enumerates_own hleaf
    next sources hleaf hsources =>
      have hkeys := (wellKeyed_recordFields (wellKeyed_get hbelow "values")).1
      rw [hsources] at hkeys
      exact enumerates_sources hleaf hsources hkeys
    next hleaf hsources =>
      exact enumerates_container hleaf hsources hkeys (enumerates_walkFields hbelow)
  | .undefined | .null | .bool _ | .num _ | .str _ | .arr _ => fun _ _ =>
    .empty fun p => by
      obtain ⟨keys, label?⟩ := p
      cases keys <;> rfl

theorem enumerates_walkFields : ∀ {fields : List (String × JsValue)},
    (∀ e ∈ fields, e.2.wellKeyed = true) → ∀ e ∈ fields, ∀ pathParts,
      Enumerates (fun p : LeafPlace => leafAt p.1 p.2 pathParts e.2) (walkValues pathParts e.2)
  | [] => fun _ _ he => nomatch he
  | e :: _ => fun h => List.forall_mem_cons.2
    ⟨enumerates_walkValues (h e List.mem_cons_self),
      enumerates_walkFields fun e he => h e (List.mem_cons_of_mem _ he)⟩

end

end Walk

/-! ## The leaves of a tree -/

/-- A leaf with its context. -/
abbrev SnapshotLeaf := String × ValueLeaf

/-- A group of contexts, a context of it, and a place below. -/
abbrev SnapshotPlace := String × String × LeafPlace

/-- The leaf at a place of a tree. -/
def snapshotLeafAt (tree : List (String × JsValue)) (p : SnapshotPlace) : Option SnapshotLeaf :=
  (tree.lookup p.1).bind fun group =>
    if p.1 ∈ SK_NON_CONTEXT_KEYS then none
    else (((recordFields group).getD []).lookup p.2.1).bind fun node =>
      (leafAt p.2.2.1 p.2.2.2 [] node).map (p.1 ++ "." ++ p.2.1, ·)

/-- A leaf that the snapshot does not leave out. -/
def sentLeafAt (tree : List (String × JsValue)) (p : SnapshotPlace) : Option SnapshotLeaf :=
  (snapshotLeafAt tree p).filter fun e =>
    !shouldSkipOwnInjectedLeaf e.2.source (buildSourceLookup tree)

/-- The leaves that the walk over the contexts hands on. -/
def sentLeaves (tree : List (String × JsValue)) : List SnapshotLeaf :=
  (contextsOf tree).flatMap fun node =>
    ((walkValues [] node.2).filter fun leaf =>
      !shouldSkipOwnInjectedLeaf leaf.source (buildSourceLookup tree)).map (node.1, ·)

theorem sentLeaves_eq (tree : List (String × JsValue)) : sentLeaves tree =
    (tree.flatMap fun group =>
      if group.1 ∈ SK_NON_CONTEXT_KEYS then []
      else ((recordFields group.2).getD []).flatMap fun node =>
        (walkValues [] node.2).map (group.1 ++ "." ++ node.1, ·)).filter fun e =>
          !shouldSkipOwnInjectedLeaf e.2.source (buildSourceLookup tree) := by
  have hgroups : ∀ groups : List (String × JsValue),
      (groups.filter fun group => group.1 ∉ SK_NON_CONTEXT_KEYS).flatMap (fun group =>
        ((recordFields group.2).getD []).flatMap fun node =>
          (walkValues [] node.2).map (group.1 ++ "." ++ node.1, ·)) =
      groups.flatMap fun group =>
        if group.1 ∈ SK_NON_CONTEXT_KEYS then []
        else ((recordFields group.2).getD []).flatMap fun node =>
          (walkValues [] node.2).map (group.1 ++ "." ++ node.1, ·) := by
    intro groups
    induction groups with
    | nil => rfl
    | cons group groups ih =>
      rw [List.flatMap_cons, List.filter_cons, ← ih]
      split_ifs <;> simp_all
  rw [← hgroups, sentLeaves, contextsOf]
  simp only [List.filter_flatMap, List.flatMap_assoc, List.flatMap_map, List.filter_map,
    Function.comp_def]

theorem enumerates_sentLeaves {tree : List (String × JsValue)}
    (h : (JsValue.obj tree).wellKeyed = true) :
    Enumerates (sentLeafAt tree) (sentLeaves tree) := by
  obtain ⟨hkeys, hgroups⟩ := wellKeyed_obj.1 h
  rw [sentLeaves_eq]
  refine Enumerates.filter ?_ _
  refine Enumerates.lookup
    (fun name group (p : String × LeafPlace) =>
      if name ∈ SK_NON_CONTEXT_KEYS then none
      else (((recordFields group).getD []).lookup p.1).bind fun node =>
        (leafAt p.2.1 p.2.2 [] node).map (name ++ "." ++ p.1, ·))
    (fun name group =>
      if name ∈ SK_NON_CONTEXT_KEYS then []
      else ((recordFields group).getD []).flatMap fun node =>
        (walkValues [] node.2).map (name ++ "." ++ node.1, ·)) hkeys fun group hgroup => ?_
  split_ifs
  · exact .empty fun _ => rfl
  · obtain ⟨hnodes, hbelow⟩ := wellKeyed_recordFields (hgroups group hgroup)
    exact Enumerates.lookup
      (fun name node (p : LeafPlace) =>
        (leafAt p.1 p.2 [] node).map (group.1 ++ "." ++ name, ·))
      (fun name node => (walkValues [] node).map (group.1 ++ "." ++ name, ·)) hnodes
      fun node hnode => (enumerates_walkValues (hbelow node hnode) []).map _

/-! ## Groups -/

/-- The key under which a leaf is grouped. -/
def groupKey (e : SnapshotLeaf) : String :=
  e.1 ++ "|" ++ e.2.source.getD "" ++ "|" ++ e.2.timestamp

/-- Where and when a leaf was measured. -/
def origin (e : SnapshotLeaf) : String × Option String × String :=
  (e.1, e.2.source, e.2.timestamp)

/-- A value with what its delta says of it. -/
structure AttributedValue where
  context : Option String
  sourceRef : Option String
  timestamp : Option String
  value : DeltaValue
  deriving DecidableEq

def Delta.attributed (delta : Delta) : List AttributedValue :=
  delta.updates.flatMap fun update =>
    update.values.map fun v => ⟨delta.context, update.sourceRef, update.timestamp, v⟩

/-- A leaf as it is. -/
def ownAttribution (e : SnapshotLeaf) : AttributedValue :=
  ⟨some e.1, e.2.source, some e.2.timestamp, ⟨e.2.path, e.2.value⟩⟩

/-- A leaf in the delta of a group that begins with `first`. -/
def attributedTo (first e : SnapshotLeaf) : AttributedValue :=
  ⟨some first.1, first.2.source.filter (· ≠ ""), some first.2.timestamp, ⟨e.2.path, e.2.value⟩⟩

/-- A leaf in the delta of its group. -/
def attributionIn (leaves : List SnapshotLeaf) (e : SnapshotLeaf) : AttributedValue :=
  attributedTo ((leaves.find? fun e' => groupKey e' = groupKey e).getD e) e

/-- The group of some leaves. -/
def groupOf : List SnapshotLeaf → Option SnapshotGroup
  | [] => none
  | e :: es => some ⟨e.1, e.2.source, e.2.timestamp,
      (e :: es).map fun e => ⟨e.2.path, e.2.value⟩⟩

/-- The groups of leaves. -/
def grouped (leaves : List SnapshotLeaf) : OrderedMap String SnapshotGroup :=
  leaves.foldl (fun grouped e => groupLeaf e.1 grouped e.2) .empty

theorem groupLeavesByMeasurement_eq (tree : List (String × JsValue)) :
    groupLeavesByMeasurement tree (buildSourceLookup tree) = grouped (sentLeaves tree) := by
  rw [groupLeavesByMeasurement, grouped, sentLeaves, List.foldl_flatMap]
  congr 1
  funext m node
  rw [List.foldl_map]

theorem grouped_append (leaves : List SnapshotLeaf) (e : SnapshotLeaf) :
    grouped (leaves ++ [e]) = groupLeaf e.1 (grouped leaves) e.2 := by
  rw [grouped, List.foldl_append]
  rfl

/-- A group holds the leaves with its key, in order. -/
theorem get?_grouped (leaves : List SnapshotLeaf) (key : String) :
    (grouped leaves).get? key = groupOf (leaves.filter fun e => groupKey e = key) := by
  induction leaves using List.reverseRecOn generalizing key with
  | nil => rfl
  | append_singleton leaves e ih =>
    have hother : groupKey e ≠ key → (leaves ++ [e]).filter (fun e => groupKey e = key) =
        leaves.filter fun e => groupKey e = key := by
      intro hne
      simp [List.filter_append, hne]
    have hown : (leaves ++ [e]).filter (fun e' => groupKey e' = groupKey e) =
        leaves.filter (fun e' => groupKey e' = groupKey e) ++ [e] := by
      simp [List.filter_append]
    have hkey := ih (groupKey e)
    rw [grouped_append, groupLeaf, ← groupKey, hkey]
    by_cases hk : groupKey e = key
    · subst hk
      rw [hown]
      cases leaves.filter (fun e' => groupKey e' = groupKey e) with
      | nil => exact OrderedMap.get?_set_self ..
      | cons a as =>
        refine (OrderedMap.get?_set_self ..).trans ?_
        simp [groupOf]
    · rw [hother hk, ← ih key]
      split <;> exact OrderedMap.get?_set_of_ne _ (Ne.symm hk) _

theorem attributed_snapshotDelta (lookup : OrderedMap String JsValue) (entry : SnapshotGroup) :
    (snapshotDelta lookup entry).attributed = entry.values.map fun v =>
      ⟨some entry.context, entry.source.filter (· ≠ ""), some entry.timestamp, v⟩ := by
  simp [snapshotDelta, Delta.attributed]

/-- The values of a group, each in the delta that begins with the first of them. -/
theorem attributed_groupOf (lookup : OrderedMap String JsValue) (leaves : List SnapshotLeaf)
    (key : String) :
    ((groupOf (leaves.filter fun e => groupKey e = key)).elim []
      fun entry => (snapshotDelta lookup entry).attributed) =
        (leaves.filter fun e => groupKey e = key).map (attributionIn leaves) := by
  have hfirst : ∀ e ∈ leaves.filter (fun e => groupKey e = key),
      leaves.find? (fun e' => groupKey e' = groupKey e) =
        (leaves.filter fun e => groupKey e = key).head? := by
    intro e he
    rw [of_decide_eq_true (List.mem_filter.1 he).2, List.head?_filter]
  cases hls : leaves.filter (fun e => groupKey e = key) with
  | nil => rfl
  | cons a as =>
    rw [groupOf, Option.elim_some, attributed_snapshotDelta, List.map_map]
    refine List.map_congr_left fun e he => ?_
    rw [← hls] at he
    rw [attributionIn, hfirst e he, hls]
    rfl

/-- The values of the deltas are those of the groups. -/
theorem attributed_buildSnapshotDeltas (lookup : OrderedMap String JsValue)
    (leaves : List SnapshotLeaf) :
    (buildSnapshotDeltas (grouped leaves) lookup).flatMap Delta.attributed =
      (grouped leaves).keys.flatMap fun key =>
        (leaves.filter fun e => groupKey e = key).map (attributionIn leaves) := by
  have hempty : ∀ entries : List SnapshotGroup,
      ((entries.filter fun entry => entry.values ≠ []).map (snapshotDelta lookup)).flatMap
        Delta.attributed = entries.flatMap fun entry => (snapshotDelta lookup entry).attributed := by
    intro entries
    induction entries with
    | nil => rfl
    | cons entry entries ih =>
      rw [List.flatMap_cons, ← ih, List.filter_cons]
      split_ifs with hvalues
      · rfl
      · simp only [ne_eq, decide_eq_true_eq, not_not] at hvalues
        rw [attributed_snapshotDelta, hvalues, List.map_nil, List.nil_append]
  rw [buildSnapshotDeltas, hempty, OrderedMap.values_eq_filterMap,
    List.filterMap_eq_flatMap_toList, List.flatMap_assoc]
  refine List.flatMap_congr fun key _ => ?_
  rw [← attributed_groupOf lookup, ← get?_grouped]
  cases (grouped leaves).get? key <;> simp

theorem mem_keys_grouped (leaves : List SnapshotLeaf) : ∀ e ∈ leaves,
    groupKey e ∈ (grouped leaves).keys := by
  intro e he
  have hmem : e ∈ leaves.filter fun e' => groupKey e' = groupKey e :=
    List.mem_filter.2 ⟨he, by simp⟩
  refine OrderedMap.mem_keys.2 ?_
  rw [get?_grouped]
  cases hls : leaves.filter (fun e' => groupKey e' = groupKey e) with
  | nil => rw [hls] at hmem; nomatch hmem
  | cons a as => exact ⟨_, rfl⟩

/-- **What a snapshot delivers.** Every value that is sent once, with the origin of the first leaf
that has its group key. -/
theorem attributed_collectValuesSnapshot (tree : List (String × JsValue)) :
    ((collectValuesSnapshot (.obj tree)).flatMap Delta.attributed).Perm
      ((sentLeaves tree).map (attributionIn (sentLeaves tree))) := by
  have hcollect : collectValuesSnapshot (.obj tree) =
      buildSnapshotDeltas (grouped (sentLeaves tree)) (buildSourceLookup tree) := by
    rw [← groupLeavesByMeasurement_eq]
    rfl
  rw [hcollect, attributed_buildSnapshotDeltas, ← List.map_flatMap]
  exact (flatMap_filter_perm (grouped (sentLeaves tree)).nodup_keys
    (mem_keys_grouped _)).map _

/-! ## Attribution -/

/-- Every value that is sent is delivered once, with the context, the source and the timestamp of
its own leaf, and nothing else is delivered. -/
def Complete (tree : List (String × JsValue)) (deltas : List Delta) : Prop :=
  ∃ leaves : List SnapshotLeaf, Enumerates (sentLeafAt tree) leaves ∧
    (deltas.flatMap Delta.attributed).Perm (leaves.map ownAttribution)

/-- No leaf that is sent names an empty source, and two of them with one group key have one
origin. -/
def Distinguishable (tree : List (String × JsValue)) : Prop :=
  (∀ p e, sentLeafAt tree p = some e → e.2.source ≠ some "") ∧
    ∀ p e p' e', sentLeafAt tree p = some e → sentLeafAt tree p' = some e' →
      groupKey e = groupKey e' → origin e = origin e'

/-- Every leaf is in the group of the first leaf with its key. -/
theorem exists_attributedTo {leaves : List SnapshotLeaf} {e : SnapshotLeaf} (he : e ∈ leaves) :
    ∃ first, leaves.find? (fun e' => groupKey e' = groupKey e) = some first ∧
      groupKey first = groupKey e ∧ attributionIn leaves e = attributedTo first e := by
  cases hfind : leaves.find? fun e' => groupKey e' = groupKey e with
  | none =>
    have := List.find?_eq_none.1 hfind e he
    simp at this
  | some first =>
    refine ⟨first, rfl, by simpa using List.find?_some hfind, ?_⟩
    rw [attributionIn, hfind, Option.getD_some]

theorem attributedTo_eq_own {first e : SnapshotLeaf} (h : origin first = origin e)
    (hsource : e.2.source ≠ some "") : attributedTo first e = ownAttribution e := by
  simp only [origin, Prod.mk.injEq] at h
  obtain ⟨hcontext, hsource', htimestamp⟩ := h
  rw [attributedTo, ownAttribution, hcontext, hsource', htimestamp]
  cases hs : e.2.source with
  | none => rfl
  | some s => simp [Option.filter, show s ≠ "" from fun h => hsource (h ▸ hs)]

/-- The origin of a delivered value has the group key of its leaf. -/
theorem groupKey_of_attributedTo {first e e' : SnapshotLeaf}
    (h : attributedTo first e' = ownAttribution e) : groupKey first = groupKey e := by
  simp only [attributedTo, ownAttribution, AttributedValue.mk.injEq, Option.some.injEq] at h
  obtain ⟨hcontext, hsource, htimestamp, -⟩ := h
  rw [groupKey, groupKey, hcontext, htimestamp, ← hsource]
  cases first.2.source with
  | none => rfl
  | some s => by_cases hs : s = "" <;> simp [Option.filter, hs]

theorem attribution_eq_own {leaves : List SnapshotLeaf}
    (hsource : ∀ e ∈ leaves, e.2.source ≠ some "")
    (horigin : ∀ e ∈ leaves, ∀ e' ∈ leaves, groupKey e = groupKey e' → origin e = origin e') :
    leaves.map (attributionIn leaves) = leaves.map ownAttribution := by
  refine List.map_congr_left fun e he => ?_
  obtain ⟨first, hfind, hkey, hattr⟩ := exists_attributedTo he
  rw [hattr]
  exact attributedTo_eq_own (horigin first (List.mem_of_find?_eq_some hfind) e he hkey)
    (hsource e he)

/-- A leaf that is delivered as it is has the origin of its group. -/
theorem exists_own {leaves : List SnapshotLeaf}
    (hperm : (leaves.map (attributionIn leaves)).Perm (leaves.map ownAttribution))
    {e : SnapshotLeaf} (he : e ∈ leaves) : ∃ first e',
      leaves.find? (fun e' => groupKey e' = groupKey e) = some first ∧
        attributedTo first e' = ownAttribution e := by
  have hmem := hperm.symm.subset (List.mem_map_of_mem he)
  obtain ⟨e', he', heq⟩ := List.mem_map.1 hmem
  obtain ⟨first, hfind, hkey, hattr⟩ := exists_attributedTo he'
  rw [hattr] at heq
  refine ⟨first, e', ?_, heq⟩
  rw [← hkey, groupKey_of_attributedTo heq] at hfind
  exact hfind

theorem distinguishable_of_perm {leaves : List SnapshotLeaf}
    (hperm : (leaves.map (attributionIn leaves)).Perm (leaves.map ownAttribution)) :
    (∀ e ∈ leaves, e.2.source ≠ some "") ∧
      ∀ e ∈ leaves, ∀ e' ∈ leaves, groupKey e = groupKey e' → origin e = origin e' := by
  constructor
  · intro e he hempty
    obtain ⟨first, e', -, heq⟩ := exists_own hperm he
    have hsource := congrArg AttributedValue.sourceRef heq
    rw [ownAttribution, hempty] at hsource
    simpa using (Option.filter_eq_some_iff.1 hsource).2
  · intro e he e' he' hkey
    obtain ⟨first, e₁, hfind, heq⟩ := exists_own hperm he
    obtain ⟨first', e₂, hfind', heq'⟩ := exists_own hperm he'
    rw [hkey, hfind'] at hfind
    obtain rfl := Option.some.inj hfind
    simp only [attributedTo, ownAttribution, AttributedValue.mk.injEq, Option.some.injEq]
      at heq heq'
    rw [origin, origin, ← heq.1, ← heq'.1, ← heq.2.1, ← heq'.2.1, ← heq.2.2.1, ← heq'.2.2.1]

/-- **Completeness and attribution.** A snapshot delivers every value of a tree once and as its own
leaf has it exactly when the leaves of the tree can be told apart. -/
theorem complete_iff_distinguishable {tree : List (String × JsValue)}
    (h : (JsValue.obj tree).wellKeyed = true) :
    Complete tree (collectValuesSnapshot (.obj tree)) ↔ Distinguishable tree := by
  have hleaves := enumerates_sentLeaves h
  have hdelivered := attributed_collectValuesSnapshot tree
  constructor
  · rintro ⟨leaves, hplaces, hperm⟩
    obtain ⟨hsource, horigin⟩ := distinguishable_of_perm
      ((hdelivered.symm.trans hperm).trans ((hplaces.perm hleaves).map _))
    refine ⟨fun p e hp => hsource e (hleaves.mem_iff.2 ⟨p, hp⟩), fun p e p' e' hp hp' => ?_⟩
    exact horigin e (hleaves.mem_iff.2 ⟨p, hp⟩) e' (hleaves.mem_iff.2 ⟨p', hp'⟩)
  · rintro ⟨hsource, horigin⟩
    refine ⟨sentLeaves tree, hleaves, ?_⟩
    rw [← attribution_eq_own]
    · exact hdelivered
    · intro e he
      obtain ⟨p, hp⟩ := hleaves.mem_iff.1 he
      exact hsource p e hp
    · intro e he e' he'
      obtain ⟨p, hp⟩ := hleaves.mem_iff.1 he
      obtain ⟨p', hp'⟩ := hleaves.mem_iff.1 he'
      exact horigin p e p' e' hp hp'

/-- A node with a value of one source. -/
def valueNode (value : ℚ) (sourceRef : String) : JsValue :=
  .obj [("value", .num (.finite value)), ("$source", .str sourceRef),
    ("timestamp", .str "2026-05-21T10:00:00.000Z")]

/-- One vessel with two sources. -/
def distinctTree : List (String × JsValue) :=
  [("vessels", .obj [("self", .obj [("speed", valueNode 5 "gps.1"),
    ("heading", valueNode 1 "compass.1")])])]

theorem complete_iff_distinguishable_distinctTree :
    Complete distinctTree (collectValuesSnapshot (.obj distinctTree)) := by
  have hkeyed : (JsValue.obj distinctTree).wellKeyed = true := by decide +kernel
  have hsource : ∀ e ∈ sentLeaves distinctTree, e.2.source ≠ some "" := by decide +kernel
  have horigin : ∀ e ∈ sentLeaves distinctTree, ∀ e' ∈ sentLeaves distinctTree,
      groupKey e = groupKey e' → origin e = origin e' := by decide +kernel
  have hmem : ∀ p e, sentLeafAt distinctTree p = some e → e ∈ sentLeaves distinctTree :=
    fun p e hp => (enumerates_sentLeaves hkeyed).mem_iff.2 ⟨p, hp⟩
  exact (complete_iff_distinguishable hkeyed).2 ⟨fun p e hp => hsource e (hmem p e hp),
    fun p e p' e' hp hp' => horigin e (hmem p e hp) e' (hmem p' e' hp')⟩

/-- Two vessels whose leaves have the same group key. -/
def collidingTree : List (String × JsValue) :=
  [("vessels", .obj [("a", .obj [("speed", valueNode 5 "b|c")]),
    ("a|b", .obj [("speed", valueNode 7 "c")])])]

/-- The second vessel's speed is delivered as one of the first vessel. -/
theorem collect_collidingTree :
    (collectValuesSnapshot (.obj collidingTree)).flatMap Delta.attributed =
        [⟨some "vessels.a", some "b|c", some "2026-05-21T10:00:00.000Z",
            ⟨"speed", .num (.finite 5)⟩⟩,
          ⟨some "vessels.a", some "b|c", some "2026-05-21T10:00:00.000Z",
            ⟨"speed", .num (.finite 7)⟩⟩] ∧
      ¬ Complete collidingTree (collectValuesSnapshot (.obj collidingTree)) := by
  have hdelivered : (collectValuesSnapshot (.obj collidingTree)).flatMap Delta.attributed =
      [⟨some "vessels.a", some "b|c", some "2026-05-21T10:00:00.000Z",
          ⟨"speed", .num (.finite 5)⟩⟩,
        ⟨some "vessels.a", some "b|c", some "2026-05-21T10:00:00.000Z",
          ⟨"speed", .num (.finite 7)⟩⟩] := by
    decide +kernel
  refine ⟨hdelivered, ?_⟩
  rintro ⟨leaves, hplaces, hperm⟩
  have hleaf : sentLeafAt collidingTree ("vessels", "a|b", ["speed"], none) =
      some ("vessels.a|b",
        ⟨"speed", .num (.finite 7), "2026-05-21T10:00:00.000Z", some "c"⟩) := by
    decide +kernel
  have hmem := hperm.symm.subset (List.mem_map_of_mem (hplaces.mem_iff.2 ⟨_, hleaf⟩))
  rw [hdelivered] at hmem
  revert hmem
  decide +kernel

end EdgeLink
