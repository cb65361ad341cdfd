import EdgeLink.Client.SourceChunks

/-!
# Patches that share objects

What merging by reference does to the objects of the patches. Every object keeps its place in the
tree the patches come from, so that merges end, and only ever add to what objects have. They may
add to the objects of patches, though, and so to patches of which nothing has been merged.

* `placed_buildSourcePatches`: the patches of a tree are placed in it.
* `mergeSourceEntry_cases`: what one round of a merge does.
* `mergeSourcePatch_spec`: a merge ends, takes nothing away, and leaves everything of the patch in
  its target. It keeps every invariant that its writes keep.
* `readObject_spec`: an object can be read, and is what the tree has at its paths.
-/

namespace EdgeLink

open JsValue

/-- The path of the `i`-th patch. -/
def pathOf (patches : List SourcePatch) (i : ℕ) : List String :=
  (patches[i]?).elim [] SourcePatch.path

/-- The place of an object in the tree. -/
def place (patches : List SourcePatch) : Address → List String
  | .node i depth => (pathOf patches i).take depth
  | .chunk _ => []

/-- The value of a tree at a path, and none where it has an object. -/
def contentOf (tree : JsValue) (path : List String) : Option (Option JsValue) :=
  (shapeAt path tree).map Shape.value?

/-- What is seen of a cell. -/
def Cell.shape : Cell Address JsValue → Shape
  | .value v => .atom v
  | .object _ => .record

theorem contentOf_eq_some {tree : JsValue} {path : List String} {c : Cell Address JsValue} :
    contentOf tree path = some c.value? ↔ shapeAt path tree = some c.shape := by
  rw [contentOf, Option.map_eq_some_iff]
  constructor
  · rintro ⟨s, hs, hvalue⟩
    rw [hs]
    cases c <;> cases s <;> simp_all [Shape.value?, Cell.value?, Cell.shape]
  · intro hs
    refine ⟨c.shape, hs, ?_⟩
    cases c <;> rfl

/-- What a tree has to be for its patches. -/
structure PatchesOf (patches : List SourcePatch) (tree : JsValue) : Prop where
  leaf : ∀ p ∈ patches, leafValueAt p.path tree = some p.value
  plain : ∀ path key, (shapeAt (path ++ [key]) tree).isSome → key ≠ "__proto__"
  keyed : tree.wellKeyed = true

/-- The objects of a heap are placed in a tree. -/
abbrev PlacedIn (patches : List SourcePatch) (tree : JsValue) (h : SourceHeap) : Prop :=
  Placed (place patches) (contentOf tree) h

section Initial

variable {patches : List SourcePatch} {tree : JsValue}

theorem length_place_lt (patches : List SourcePatch) (a : Address) :
    (place patches a).length < patchDepth patches := by
  have hmax : ∀ p ∈ patches, p.path.length < patchDepth patches := by
    intro p hp
    rw [patchDepth, Nat.lt_succ_iff]
    induction patches with
    | nil => nomatch hp
    | cons p' patches ih =>
      rw [List.map_cons, List.foldr_cons]
      rcases List.mem_cons.1 hp with rfl | hp
      · exact le_max_left _ _
      · exact (ih hp).trans (le_max_right _ _)
  cases a with
  | chunk m => exact Nat.succ_pos _
  | node i depth =>
    rw [place, List.length_take, pathOf]
    cases hi : patches[i]? with
    | none => simp [patchDepth]
    | some p => exact lt_of_le_of_lt (min_le_right _ _) (hmax p (List.mem_of_getElem? hi))

theorem lookup_buildSourcePatches {a : Address} {key : String} {c : Cell Address JsValue}
    (hc : (buildSourcePatches patches a).lookup key = some c) :
    ∃ i depth p, a = .node i depth ∧ patches[i]? = some p ∧ p.path[depth]? = some key ∧
      c = p.cell i (depth + 1) := by
  cases a with
  | chunk m => nomatch hc
  | node i depth =>
    rw [buildSourcePatches] at hc
    cases hi : patches[i]? with
    | none => simp [hi] at hc
    | some p =>
      cases hdepth : p.path[depth]? with
      | none => simp [hi, hdepth] at hc
      | some k =>
        have hc := mem_of_lookup hc
        simp only [hi, hdepth, Option.elim_some, List.mem_singleton, Prod.mk.injEq] at hc
        obtain ⟨rfl, rfl⟩ := hc
        exact ⟨i, depth, p, rfl, hi, hdepth, rfl⟩

theorem take_succ_of_getElem? {path : List String} {depth : ℕ} {key : String}
    (h : path[depth]? = some key) : path.take (depth + 1) = path.take depth ++ [key] := by
  rw [List.take_add_one, h, Option.toList_some]

/-- What the tree has along the path of a patch is what the patch has there. -/
theorem shapeAt_patch {p : SourcePatch} (hleaf : leafValueAt p.path tree = some p.value) (i : ℕ)
    {depth : ℕ} (hdepth : depth ≤ p.path.length) :
    shapeAt (p.path.take depth) tree = some (p.cell i depth).shape := by
  obtain ⟨s, hs⟩ := exists_shapeAt_nil p.value
  have hpath : shapeAt p.path tree = some s := (shapeAt_of_leafValueAt hleaf).trans hs
  rcases Nat.lt_or_eq_of_le hdepth with hlt | rfl
  · rw [shapeAt_of_append (p.path.drop depth) (by simp [hlt])
      (by simp [List.take_append_drop, hpath]), SourcePatch.cell, if_pos hlt]
    rfl
  · rw [List.take_length, hpath, SourcePatch.cell, if_neg (lt_irrefl _), ← hs]
    cases p.value <;> rfl

/-- **The patches of a tree are placed in it.** -/
theorem placed_buildSourcePatches (h : PatchesOf patches tree) :
    PlacedIn patches tree (buildSourcePatches patches) where
  keys a := by
    cases a with
    | chunk m => exact List.nodup_nil
    | node i depth =>
      rw [buildSourcePatches]
      cases patches[i]? with
      | none => exact List.nodup_nil
      | some p =>
        dsimp only
        cases p.path[depth]? <;> simp
  cell {a key c} hc := by
    obtain ⟨i, depth, p, rfl, hi, hkey, rfl⟩ := lookup_buildSourcePatches hc
    have hlt : depth < p.path.length := (List.getElem?_eq_some_iff.1 hkey).1
    rw [contentOf_eq_some, place, pathOf, hi, Option.elim_some, ← take_succ_of_getElem? hkey]
    exact shapeAt_patch (h.leaf p (List.mem_of_getElem? hi)) i hlt
  object {a key b} hc := by
    obtain ⟨i, depth, p, rfl, hi, hkey, hcell⟩ := lookup_buildSourcePatches hc
    obtain rfl : b = .node i (depth + 1) := by
      rw [SourcePatch.cell] at hcell
      split at hcell
      · exact (Cell.object.inj hcell)
      · split at hcell
        · exact (Cell.object.inj hcell)
        · cases hcell
    rw [place, place, pathOf, hi, Option.elim_some, take_succ_of_getElem? hkey]

/-- A patch has everything along its path. -/
theorem isSome_cellAt_patch {i : ℕ} {path : List String} (hpath : path <+: pathOf patches i) :
    (cellAt (buildSourcePatches patches) (.object (.node i 0)) path).isSome := by
  have hbelow : ∀ (path : List String) (depth : ℕ), path <+: (pathOf patches i).drop depth →
      (cellAt (buildSourcePatches patches) (.object (.node i depth)) path).isSome := by
    intro path
    induction path with
    | nil => exact fun _ _ => rfl
    | cons key path ih =>
      intro depth hpath
      obtain ⟨rest, hrest⟩ := hpath
      cases hi : patches[i]? with
      | none => simp [pathOf, hi] at hrest
      | some p =>
        have hdrop : p.path.drop depth = key :: (path ++ rest) := by
          simpa [pathOf, hi] using hrest.symm
        have hkey : p.path[depth]? = some key := by
          rw [← Nat.add_zero depth, ← List.getElem?_drop, hdrop]
          rfl
        have htail : p.path.drop (depth + 1) = path ++ rest := by
          rw [← List.drop_drop, hdrop]
          rfl
        have hlookup : (buildSourcePatches patches (.node i depth)).lookup key =
            some (p.cell i (depth + 1)) := by
          simp [buildSourcePatches, hi, hkey]
        rw [cellAt, hlookup, Option.bind_some]
        cases path with
        | nil => rfl
        | cons key' path =>
          have hlt : depth + 1 < p.path.length := by
            by_contra hle
            rw [List.drop_eq_nil_of_le (by omega)] at htail
            cases htail
          rw [SourcePatch.cell, if_pos hlt]
          refine ih (depth + 1) ⟨rest, ?_⟩
          rw [pathOf, hi, Option.elim_some, htail]
  exact hbelow path 0 hpath

end Initial

/-! ## Merging -/

/-- A later heap has everything, and of the chunks only the target of a merge has changed. -/
structure Grows (target : Address) (h h' : SourceHeap) : Prop where
  kept : Extends h h'
  chunks : ∀ m, .chunk m ≠ target → h' (.chunk m) = h (.chunk m)

theorem Grows.refl (target : Address) (h : SourceHeap) : Grows target h h :=
  ⟨Extends.refl h, fun _ _ => rfl⟩

theorem Grows.trans {target : Address} {h h' h'' : SourceHeap} (hgrows : Grows target h h')
    (hgrows' : Grows target h' h'') : Grows target h h'' :=
  ⟨hgrows.kept.trans hgrows'.kept,
    fun m hm => (hgrows'.chunks m hm).trans (hgrows.chunks m hm)⟩

section Merge

variable {patches : List SourcePatch} {tree : JsValue}

/-- What is not a chunk has a place below the root. -/
theorem ne_chunk_of_object {h : SourceHeap} (hplaced : PlacedIn patches tree h) {a b : Address}
    {key : String} (hb : (h a).lookup key = some (.object b)) (m : ℕ) : .chunk m ≠ b := by
  rintro rfl
  have hplace := hplaced.object hb
  simp [place] at hplace

/-- **One round of a merge.** The property is written where there is none. It is there already when
it is a plain value, and two objects are merged. -/
theorem mergeSourceEntry_cases {h : SourceHeap} (hpatches : PatchesOf patches tree)
    (hplaced : PlacedIn patches tree h) {target patch : Address}
    (hplace : place patches target = place patches patch) {key : String}
    {c : Cell Address JsValue} (hc : (h patch).lookup key = some c)
    (merge : SourceHeap → Address → Address → Option SourceHeap) :
    ((h target).lookup key = none ∧
        mergeSourceEntry merge target h (key, c) = some (h.write target key c)) ∨
      ((∃ v, c = .value v) ∧ (h target).lookup key = some c ∧
        mergeSourceEntry merge target h (key, c) = some h) ∨
      ∃ current value, c = .object value ∧ (h target).lookup key = some (.object current) ∧
        mergeSourceEntry merge target h (key, c) = merge h current value := by
  have hkey : key ≠ "__proto__" := by
    refine hpatches.plain (place patches patch) key ?_
    rw [contentOf_eq_some.1 (hplaced.cell hc)]
    rfl
  rw [mergeSourceEntry, if_neg hkey]
  cases hcurrent : (h target).lookup key with
  | none => exact Or.inl ⟨rfl, rfl⟩
  | some current =>
    rcases hplaced.agree hplace hcurrent hc with rfl | ⟨a, b, rfl, rfl⟩
    · cases current with
      | value v => exact Or.inr (Or.inl ⟨⟨v, rfl⟩, rfl,
        congrArg some (write_of_lookup hcurrent)⟩)
      | object a => exact Or.inr (Or.inr ⟨a, a, rfl, rfl, rfl⟩)
    · exact Or.inr (Or.inr ⟨a, b, rfl, rfl, rfl⟩)

/-- An invariant that survives the writes of a merge between related objects. -/
structure MergeInvariant (patches : List SourcePatch) (tree : JsValue) (I : SourceHeap → Prop)
    (R : Address → Address → Prop) : Prop where
  write : ∀ {h target patch key c}, PlacedIn patches tree h → I h → R target patch →
    place patches target = place patches patch → (h patch).lookup key = some c →
    (h target).lookup key = none → I (h.write target key c)
  below : ∀ {h target patch key current value}, PlacedIn patches tree h → I h → R target patch →
    place patches target = place patches patch → (h patch).lookup key = some (.object value) →
    (h target).lookup key = some (.object current) → R current value

/-- What a merge from `h` to `h'` has done. -/
structure Merged (patches : List SourcePatch) (tree : JsValue) (I : SourceHeap → Prop)
    (target patch : Address) (h h' : SourceHeap) : Prop where
  placed : PlacedIn patches tree h'
  invariant : I h'
  grows : Grows target h h'
  has : ∀ path, (cellAt h (.object patch) path).isSome → (cellAt h' (.object target) path).isSome

variable {I : SourceHeap → Prop} {R : Address → Address → Prop}

/-- One round of a merge, where the merges below are known. -/
theorem mergeSourceEntry_spec (hpatches : PatchesOf patches tree)
    (hI : MergeInvariant patches tree I R)
    (merge : SourceHeap → Address → Address → Option SourceHeap) {h₀ h : SourceHeap}
    (hplaced : PlacedIn patches tree h) (hh : I h) (hkept : Extends h₀ h) {target patch : Address}
    (hR : R target patch) (hplace : place patches target = place patches patch) {key : String}
    {c : Cell Address JsValue} (hc : (h₀ patch).lookup key = some c)
    (hmerge : ∀ current value, R current value → place patches current = place patches value →
      place patches value = place patches patch ++ [key] →
      ∃ h', merge h current value = some h' ∧ Merged patches tree I current value h h') :
    ∃ h', mergeSourceEntry merge target h (key, c) = some h' ∧ PlacedIn patches tree h' ∧ I h' ∧
      Grows target h h' ∧ ∀ path, (cellAt h₀ c path).isSome →
        (cellAt h' (.object target) (key :: path)).isSome := by
  have hc' := hkept _ _ _ hc
  have hhas : ∀ {h' : SourceHeap}, Extends h h' → (h' target).lookup key = some c →
      ∀ path, (cellAt h₀ c path).isSome →
        (cellAt h' (.object target) (key :: path)).isSome := by
    intro h' hkept' hlookup path hpath
    exact isSome_cellAt_cons.2 ⟨c, hlookup, (hkept.trans hkept').isSome_cellAt hpath⟩
  rcases mergeSourceEntry_cases hpatches hplaced hplace hc' merge with
    ⟨hnone, heq⟩ | ⟨-, hsame, heq⟩ | ⟨current, value, rfl, hcurrent, heq⟩
  · have hgrows : Extends h (h.write target key c) := extends_write hnone
    refine ⟨_, heq, hplaced.write ?_ ?_, hI.write hplaced hh hR hplace hc' hnone,
      ⟨hgrows, fun m hm => write_of_ne hm⟩, hhas hgrows ?_⟩
    · rw [hplace]
      exact hplaced.cell hc'
    · rintro b rfl
      rw [hplace]
      exact hplaced.object hc'
    · rw [lookup_write, if_pos ⟨rfl, rfl⟩]
  · exact ⟨h, heq, hplaced, hh, Grows.refl target h, hhas (Extends.refl h) hsame⟩
  · obtain ⟨h', hresult, hmerged⟩ := hmerge current value
      (hI.below hplaced hh hR hplace hc' hcurrent)
      (by rw [hplaced.object hcurrent, hplaced.object hc', hplace]) (hplaced.object hc')
    refine ⟨h', heq.trans hresult, hmerged.placed, hmerged.invariant,
      ⟨hmerged.grows.kept, fun m _ => ?_⟩, fun path hpath => ?_⟩
    · exact hmerged.grows.chunks m (ne_chunk_of_object hplaced hcurrent m)
    · exact isSome_cellAt_cons.2 ⟨_, hmerged.grows.kept _ _ _ hcurrent,
        hmerged.has path (hkept.isSome_cellAt hpath)⟩

/-- **Merging by reference.** A merge of objects at one place ends. -/
theorem mergeSourcePatch_spec (hpatches : PatchesOf patches tree)
    (hI : MergeInvariant patches tree I R) {fuel : ℕ} {h : SourceHeap}
    (hplaced : PlacedIn patches tree h) (hh : I h) {target patch : Address} (hR : R target patch)
    (hplace : place patches target = place patches patch)
    (hfuel : patchDepth patches ≤ fuel + (place patches patch).length) :
    ∃ h', mergeSourcePatch fuel h target patch = some h' ∧
      Merged patches tree I target patch h h' := by
  induction fuel generalizing h target patch with
  | zero =>
    have := length_place_lt patches patch
    omega
  | succ fuel ih =>
    have hround : ∀ e ∈ h patch, ∀ s, (PlacedIn patches tree s ∧ I s ∧ Extends h s) →
        ∃ s', mergeSourceEntry (mergeSourcePatch fuel) target s e = some s' ∧
          (PlacedIn patches tree s' ∧ I s' ∧ Extends h s') ∧ Grows target s s' ∧
            ∀ path, (cellAt h e.2 path).isSome →
              (cellAt s' (.object target) (e.1 :: path)).isSome := by
      rintro ⟨key, c⟩ he s ⟨hplaced', hh', hkept⟩
      obtain ⟨s', heq, hplaced'', hh'', hgrows, hhas⟩ :=
        mergeSourceEntry_spec hpatches hI (mergeSourcePatch fuel) hplaced' hh' hkept hR hplace
          ((lookup_eq_some_iff (hplaced.keys patch)).2 he)
          fun current value hR' hplace' hvalue => ih hplaced' hh' hR' hplace' (by
            rw [hvalue, List.length_append, List.length_singleton]
            omega)
      exact ⟨s', heq, ⟨hplaced'', hh'', hkept.trans hgrows.kept⟩, hgrows, hhas⟩
    obtain ⟨h', hresult, ⟨hplaced', hh', -⟩, hgrows, hhas⟩ := foldlM_spec (Grows.refl target)
      (fun _ _ _ => Grows.trans)
      (fun _ _ _ hgrows hhas path hpath => hgrows.kept.isSome_cellAt (hhas path hpath))
      hround ⟨hplaced, hh, Extends.refl h⟩
    refine ⟨h', hresult, hplaced', hh', hgrows, fun path hpath => ?_⟩
    cases path with
    | nil => rfl
    | cons key path =>
      obtain ⟨c, hlookup, hbelow⟩ := isSome_cellAt_cons.1 hpath
      exact hhas (key, c) (mem_of_lookup hlookup) path hbelow

/-- Merging patches into a chunk. -/
theorem mergePatches_spec (hpatches : PatchesOf patches tree)
    (hI : MergeInvariant patches tree I R) {h : SourceHeap} (hplaced : PlacedIn patches tree h)
    (hh : I h) (made : ℕ) (is : List ℕ) (hR : ∀ i ∈ is, R (.chunk made) (.node i 0)) :
    ∃ h', is.foldlM (fun h i =>
        mergeSourcePatch (patchDepth patches) h (.chunk made) (.node i 0)) h = some h' ∧
      PlacedIn patches tree h' ∧ I h' ∧ Grows (.chunk made) h h' ∧
      ∀ i ∈ is, ∀ path, (cellAt h (.object (.node i 0)) path).isSome →
        (cellAt h' (.object (.chunk made)) path).isSome := by
  have hround : ∀ i ∈ is, ∀ s, (PlacedIn patches tree s ∧ I s ∧ Extends h s) →
      ∃ s', mergeSourcePatch (patchDepth patches) s (.chunk made) (.node i 0) = some s' ∧
        (PlacedIn patches tree s' ∧ I s' ∧ Extends h s') ∧ Grows (.chunk made) s s' ∧
          ∀ path, (cellAt h (.object (.node i 0)) path).isSome →
            (cellAt s' (.object (.chunk made)) path).isSome := by
    rintro i hi s ⟨hplaced', hh', hkept⟩
    obtain ⟨s', heq, hmerged⟩ := mergeSourcePatch_spec hpatches hI hplaced' hh' (hR i hi)
      (by simp [place]) (Nat.le_add_right (patchDepth patches) _)
    exact ⟨s', heq, ⟨hmerged.placed, hmerged.invariant, hkept.trans hmerged.grows.kept⟩,
      hmerged.grows, fun path hpath => hmerged.has path (hkept.isSome_cellAt hpath)⟩
  obtain ⟨h', hresult, ⟨hplaced', hh', -⟩, hgrows, hhas⟩ := foldlM_spec
    (Grows.refl (.chunk made)) (fun _ _ _ => Grows.trans)
    (fun _ _ _ hgrows hhas path hpath => hgrows.kept.isSome_cellAt (hhas path hpath))
    hround ⟨hplaced, hh, Extends.refl h⟩
  exact ⟨h', hresult, hplaced', hh', hgrows, hhas⟩

theorem buildSourceChunk_eq {fuel made : ℕ} {h : SourceHeap} (hfresh : h (.chunk made) = [])
    (is : List ℕ) : buildSourceChunk fuel h made is =
      is.foldlM (fun h i => mergeSourcePatch fuel h (.chunk made) (.node i 0)) h := by
  rw [buildSourceChunk, ← hfresh, Function.update_eq_self]

/-- A tree is what a cell holds. -/
structure Reads (h : SourceHeap) (c : Cell Address JsValue) (v : JsValue) : Prop where
  keyed : v.wellKeyed = true
  shape : ∀ path, shapeAt path v = (cellAt h c path).map Cell.shape

theorem reads_value {h : SourceHeap} {v : JsValue} (hkeyed : tree.wellKeyed = true)
    {path : List String} (hv : shapeAt path tree = some (.atom v)) : Reads h (.value v) v := by
  obtain ⟨hself, hnil, hbelow⟩ := atom_spec hkeyed hv
  refine ⟨hself, fun path => ?_⟩
  cases path with
  | nil => exact hnil
  | cons key path => exact hbelow key path

theorem reads_object {h : SourceHeap} {a : Address} (hkeys : ((h a).map Prod.fst).Nodup)
    {fields : List (String × JsValue)}
    (hfields : List.Forall₂ (fun e e' => e.1 = e'.1 ∧ Reads h e.2 e'.2) (h a) fields) :
    Reads h (.object a) (.obj fields) := by
  have hkeys' : (fields.map Prod.fst).Nodup := by
    rw [keys_of_forall₂ (P := Reads h) hfields]
    exact hkeys
  refine ⟨wellKeyed_obj.2 ⟨hkeys', ?_⟩, ?_⟩
  · rintro ⟨key, v⟩ he
    have hlookup := (lookup_eq_some_iff hkeys').2 he
    rcases lookup_of_forall₂ (P := Reads h) hfields key with ⟨-, hnone⟩ | ⟨c, v', -, hv, hreads⟩
    · rw [hlookup] at hnone
      nomatch hnone
    · obtain rfl := Option.some.inj (hlookup.symm.trans hv)
      exact hreads.keyed
  · intro path
    cases path with
    | nil => rfl
    | cons key path =>
      rcases lookup_of_forall₂ (P := Reads h) hfields key with
        ⟨hnone, hnone'⟩ | ⟨c, v, hc, hv, hreads⟩
      · simp [shapeAt, cellAt, hnone, hnone']
      · simpa [shapeAt, cellAt, hc, hv] using hreads.shape path

/-- **Reading an object.** -/
theorem readObject_spec (hpatches : PatchesOf patches tree) {h : SourceHeap}
    (hplaced : PlacedIn patches tree h) {fuel : ℕ} {a : Address}
    (hfuel : patchDepth patches ≤ fuel + (place patches a).length) :
    ∃ v, readObject h fuel a = some v ∧ Reads h (.object a) v := by
  induction fuel generalizing a with
  | zero =>
    have := length_place_lt patches a
    omega
  | succ fuel ih =>
    have hentry : ∀ e ∈ h a, ∃ e', readHeapEntry (readObject h fuel) e = some e' ∧
        e.1 = e'.1 ∧ Reads h e.2 e'.2 := by
      rintro ⟨key, c⟩ he
      have hlookup := (lookup_eq_some_iff (hplaced.keys a)).2 he
      cases c with
      | value v =>
        exact ⟨(key, v), rfl, rfl, reads_value hpatches.keyed
          (contentOf_eq_some.1 (hplaced.cell hlookup))⟩
      | object b =>
        obtain ⟨v, hread, hreads⟩ := ih (a := b) (by
          rw [hplaced.object hlookup, List.length_append, List.length_singleton]
          omega)
        exact ⟨(key, v), by rw [readHeapEntry, hread]; rfl, rfl, hreads⟩
    obtain ⟨fields, hread, hfields⟩ := mapM_spec hentry
    exact ⟨.obj fields, by rw [readObject, hread]; rfl, reads_object (hplaced.keys a) hfields⟩

end Merge

end EdgeLink
