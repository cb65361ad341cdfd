import EdgeLink.Client.SourcePasses

/-!
# The chunks as a partition

Whether the chunks of a sources tree are a partition of its leaves. They are as long as no chunk is
split between two patches of one provider, a provider being a key of the tree: what is built before
a split has merged such patches, and the merge stays when they are separated.

* `chunkSourceSnapshot_spec`: the chunks are always returned.
* `partition_iff_keepsProviders`: they are a `Partition` exactly when every split keeps the patches
  of each provider together.
* `chunks_splitTree`: two leaves of one provider that are split.
-/

namespace EdgeLink

open JsValue

/-! ## What is asked of the chunks -/

/-- A leaf of a tree is in a chunk. -/
def Occurs (tree : JsValue) (path : List String) (c : SourceChunk) : Prop :=
  IsLeafPath c.sources path ∧ shapeAt path c.sources = shapeAt path tree

/-- The chunks of a tree are a partition of its leaves into packets. -/
structure Partition (tree : JsValue) (chunks : List SourceChunk) : Prop where
  /-- Every leaf is in exactly one chunk. -/
  once : ∀ path, path ≠ [] → IsLeafPath tree path →
    ∃! k : ℕ, ∃ c, chunks[k]? = some c ∧ Occurs tree path c
  /-- The chunks merged are the tree. -/
  back : SameTree (chunks.foldl (fun t c => overlay (some t) c.sources) (.obj [])) tree
  /-- A chunk fits, or is a single leaf. -/
  fits : ∀ c ∈ chunks, c.packetLength ≤ MAX_SAFE_UDP_PAYLOAD ∨
    ∃ path, ∀ path', IsLeafPath c.sources path' ↔ path' = path

/-- The first key of a patch. -/
def provider (patches : List SourcePatch) (i : ℕ) : Option String :=
  (pathOf patches i).head?

/-- Some passes, each of which splits a chunk. -/
def SplitsTo (packetSize : JsValue → ℕ → ℕ → ℕ) (fuel : ℕ) : ChunkState → ChunkState → Prop :=
  Relation.ReflTransGen fun s s' => ∃ left right, Splits packetSize fuel s left right s'

/-- No pass splits a chunk between two patches of one provider. -/
def KeepsProviders (patchSize : JsValue → ℕ) (packetSize : JsValue → ℕ → ℕ → ℕ)
    (sources : JsValue) : Prop :=
  let patches := flattenSourcePatches [] sources
  ∀ s left right s', SplitsTo packetSize (patchDepth patches) (firstState patchSize sources) s →
    Splits packetSize (patchDepth patches) s left right s' →
      ∀ i ∈ left, ∀ j ∈ right, provider patches i ≠ provider patches j

/-! ## The patches of a tree -/

theorem withoutProtoFields_iff {fields : List (String × JsValue)} :
    withoutProtoFields fields = true ↔
      ∀ e ∈ fields, e.1 ≠ "__proto__" ∧ withoutProto e.2 = true := by
  induction fields with
  | nil => simp [withoutProtoFields]
  | cons e fields ih => simp [withoutProtoFields, ih]

theorem ne_proto_of_shapeAt {v : JsValue} (hv : withoutProto v = true) {path : List String}
    {key : String} (h : (shapeAt (path ++ [key]) v).isSome) : key ≠ "__proto__" := by
  induction path generalizing v with
  | nil =>
    obtain ⟨fields, w, rfl, hlookup, -⟩ := isSome_shapeAt_cons.1 h
    exact (withoutProtoFields_iff.1 hv (key, w) (mem_of_lookup hlookup)).1
  | cons key' path ih =>
    obtain ⟨fields, w, rfl, hlookup, hw⟩ := isSome_shapeAt_cons.1 h
    exact ih (withoutProtoFields_iff.1 hv (key', w) (mem_of_lookup hlookup)).2 hw

namespace SourceTree

variable (sources : SourceTree)

def tree : JsValue := .obj sources.fields

def patches : List SourcePatch := flattenSourcePatches [] sources.tree

theorem patchesOf : PatchesOf sources.patches sources.tree where
  leaf _ hp := ((mem_patches_iff sources.keyed).1 hp).2
  plain _ _ h := ne_proto_of_shapeAt sources.plain h
  keyed := sources.keyed

variable {sources}

/-- A patch is at a leaf. -/
theorem pathOf_spec {i : ℕ} (hi : i < sources.patches.length) :
    pathOf sources.patches i ≠ [] ∧ IsLeafPath sources.tree (pathOf sources.patches i) := by
  obtain ⟨hne, hleaf⟩ := (mem_patches_iff sources.keyed).1 (List.getElem_mem hi)
  rw [pathOf, List.getElem?_eq_getElem hi, Option.elim_some]
  exact ⟨hne, isLeafPath_iff.2 (by rw [tree, hleaf]; rfl)⟩

/-- Every leaf has a patch. -/
theorem exists_patch {path : List String} (hpath : path ≠ [])
    (hleaf : IsLeafPath sources.tree path) :
    ∃ i, i < sources.patches.length ∧ pathOf sources.patches i = path := by
  obtain ⟨v, hv⟩ := Option.isSome_iff_exists.1 (isLeafPath_iff.1 hleaf)
  have hmem : (⟨path, v⟩ : SourcePatch) ∈ sources.patches :=
    (mem_patches_iff sources.keyed).2 ⟨hpath, hv⟩
  obtain ⟨i, hi, hget⟩ := List.getElem_of_mem hmem
  exact ⟨i, hi, by rw [pathOf, List.getElem?_eq_getElem hi, Option.elim_some, hget]⟩

/-- Different patches are at different leaves. -/
theorem pathOf_inj {i j : ℕ} (hi : i < sources.patches.length) (hj : j < sources.patches.length)
    (h : pathOf sources.patches i = pathOf sources.patches j) : i = j := by
  rw [pathOf, pathOf, List.getElem?_eq_getElem hi, List.getElem?_eq_getElem hj, Option.elim_some,
    Option.elim_some] at h
  have hnodup : (sources.patches.map SourcePatch.path).Nodup := nodup_paths sources.keyed
  have hi' : i < (sources.patches.map SourcePatch.path).length := by simpa using hi
  have hj' : j < (sources.patches.map SourcePatch.path).length := by simpa using hj
  exact (@List.Nodup.getElem_inj_iff _ _ hnodup i hi' j hj').1 (by simpa using h)

/-- A leaf is on the path of its own patch only. -/
theorem pathOf_eq_of_prefix {i : ℕ} (hi : i < sources.patches.length) {path : List String}
    (hleaf : IsLeafPath sources.tree path) (habove : path <+: pathOf sources.patches i) :
    pathOf sources.patches i = path := by
  obtain ⟨below, hbelow⟩ := habove
  have hsome : (shapeAt (path ++ below) sources.tree).isSome := by
    rw [hbelow]
    exact isSome_of_isLeafPath (pathOf_spec hi).2
  rw [← hbelow, eq_nil_of_isLeafPath hleaf hsome, List.append_nil]

theorem lt_of_pathOf_ne_nil {patches : List SourcePatch} {i : ℕ} (h : pathOf patches i ≠ []) :
    i < patches.length := by
  by_contra hle
  rw [pathOf, List.getElem?_eq_none (by omega)] at h
  exact h rfl

end SourceTree

/-! ## The whole run -/

section Run

variable {γ : Type} {group : ℕ → γ} {patches : List SourcePatch} {tree : JsValue}
  {packetSize : JsValue → ℕ → ℕ → ℕ}

/-- The passes keep the state of the loop sound. -/
theorem sound_of_splitsTo (hpatches : PatchesOf patches tree) {s s' : ChunkState}
    (hs : s.Sound patches tree group) (h : SplitsTo packetSize (patchDepth patches) s s') :
    s'.Sound patches tree group := by
  induction h with
  | refl => exact hs
  | tail _ hstep ih =>
    obtain ⟨left, right, hsplits⟩ := hstep
    exact (hsplits.spec hpatches ih).2

theorem length_le_flatten {chunks : List (List ℕ)} (h : ∀ is ∈ chunks, is ≠ []) :
    chunks.length ≤ chunks.flatten.length := by
  induction chunks with
  | nil => exact le_rfl
  | cons is chunks ih =>
    obtain ⟨his, hrest⟩ := List.forall_mem_cons.1 h
    have := List.length_pos_iff_ne_nil.2 his
    have := ih hrest
    rw [List.flatten_cons, List.length_append, List.length_cons]
    omega

/-- **Termination.** Every split makes one more chunk, and there are no more chunks than patches. -/
theorem splitLoop_spec (packetSize : JsValue → ℕ → ℕ → ℕ) (hpatches : PatchesOf patches tree)
    {rounds : ℕ} {s : ChunkState} (hs : s.Sound patches tree group)
    (hrounds : patches.length < rounds + s.finalChunks.length) :
    ∃ s' pass, SplitsTo packetSize (patchDepth patches) s s' ∧
      splitLoop packetSize (patchDepth patches) rounds s = some pass ∧
      chunkPass packetSize (patchDepth patches) s' = some pass ∧ pass.splitIndex = none := by
  induction rounds generalizing s with
  | zero =>
    have := length_le_flatten hs.nonempty
    rw [hs.flatten, List.length_range] at this
    omega
  | succ rounds ih =>
    obtain ⟨pass, hpass, -⟩ := chunkPass_spec packetSize hpatches hs
    rw [splitLoop, hpass, Option.bind_some]
    cases hindex : pass.splitIndex with
    | none => exact ⟨s, pass, .refl, rfl, hpass, hindex⟩
    | some splitIndex =>
      have hsplits : Splits packetSize (patchDepth patches) s _ _ (s.next pass splitIndex) :=
        ⟨pass, splitIndex, hpass, hindex, rfl, rfl⟩
      obtain ⟨hspec, hnext⟩ := hsplits.spec hpatches hs
      obtain ⟨before, after, hchunks, hchunks'⟩ := hspec.chunks
      obtain ⟨s', pass', hto, hresult⟩ := ih hnext (by
        rw [hchunks']
        rw [hchunks] at hrounds
        simp only [List.length_append, List.length_cons] at hrounds ⊢
        omega)
      exact ⟨s', pass', .head ⟨_, _, hsplits⟩ hto, hresult⟩

/-- A chunk as it is returned, where its patches had reached something in the heap `h₀`. -/
structure Delivered (patches : List SourcePatch) (tree : JsValue) (group : ℕ → γ)
    (h₀ : SourceHeap) (is : List ℕ) (c : SourceChunk) : Prop where
  keyed : c.sources.wellKeyed = true
  within : Within tree c.sources
  has : ∀ i ∈ is, ∀ path, (cellAt h₀ (.object (.node i 0)) path).isSome →
    (shapeAt path c.sources).isSome
  only : ∀ path, path ≠ [] → (shapeAt path c.sources).isSome →
    ∃ i ∈ is, ∃ j, group j = group i ∧ path <+: pathOf patches j
  fits : c.packetLength ≤ MAX_SAFE_UDP_PAYLOAD ∨ is.length ≤ 1

/-- Reading a packet that has been built. -/
theorem delivered_of_packed (hpatches : PatchesOf patches tree)
    (hroot : shapeAt [] tree = some .record) {made : ℕ} {h₀ h : SourceHeap}
    (hsound : SoundHeap patches tree made h) (hnodes : OwnNodes patches group h) {is : List ℕ}
    {packet : BuiltChunk} (hpacked : Packed patches group h₀ h is packet) :
    ∃ c, (readObject h (patchDepth patches) packet.sources).map
        (SourceChunk.mk · packet.packetLength) = some c ∧
      Delivered patches tree group h₀ is c := by
  obtain ⟨⟨m, hm, hcarries, hown⟩, hfits⟩ := hpacked
  obtain ⟨v, hread, hreads⟩ := readObject_spec (a := .chunk m) hpatches hsound.placed
    (Nat.le_add_right (patchDepth patches) _)
  have hsome : ∀ path, (shapeAt path v).isSome ↔ (cellAt h (.object (.chunk m)) path).isSome := by
    intro path
    rw [hreads.shape, Option.isSome_map]
  have hwithin : Within tree v := by
    intro path s hs
    rw [hreads.shape] at hs
    obtain ⟨c, hc, rfl⟩ := Option.map_eq_some_iff.1 hs
    cases path with
    | nil =>
      obtain rfl := Option.some.inj hc
      exact hroot
    | cons key path =>
      exact contentOf_eq_some.1 (hsound.placed.content_cellAt (List.cons_ne_nil _ _) hc)
  refine ⟨⟨v, packet.packetLength⟩, by rw [hm, hread]; rfl, hreads.keyed, hwithin,
    fun i hi path hpath => (hsome path).2 (hcarries i hi path hpath),
    fun path hne hpath => ?_, hfits⟩
  exact exists_prefix_of_chunk hsound.placed hnodes hown hne ((hsome path).1 hpath)

end Run

namespace SourceTree

variable (sources : SourceTree) (patchSize : JsValue → ℕ) (packetSize : JsValue → ℕ → ℕ → ℕ)

theorem sound_firstState {γ : Type} {group : ℕ → γ}
    (huniform : ∀ is ∈ (firstState patchSize sources.tree).finalChunks,
      Uniform sources.patches group is) :
    (firstState patchSize sources.tree).Sound sources.patches sources.tree group := by
  obtain ⟨hflatten, hnonempty⟩ := packPatchesIntoChunks_spec
    (fun i => (sources.patches[i]?).elim 0 fun p => patchSize p.tree)
    (List.range sources.patches.length)
  exact ⟨⟨placed_buildSourcePatches sources.patchesOf, fun _ _ => rfl, Extends.refl _⟩,
    ownNodes_buildSourcePatches, huniform, hflatten, hnonempty⟩

/-- The state in which a tree's patches are in no groups. -/
theorem sound_firstState_unit : (firstState patchSize sources.tree).Sound sources.patches
    sources.tree fun _ => () :=
  sources.sound_firstState patchSize fun _ _ _ _ _ _ _ _ _ _ _ _ _ => rfl

/-- **What is returned.** The chunks are those of a state that the passes lead to. -/
theorem chunkSourceSnapshot_spec :
    ∃ chunks s, chunkSourceSnapshot patchSize packetSize sources.tree = some chunks ∧
      SplitsTo packetSize (patchDepth sources.patches) (firstState patchSize sources.tree) s ∧
      (∀ left right s', ¬ Splits packetSize (patchDepth sources.patches) s left right s') ∧
      ∀ (γ : Type) (group : ℕ → γ), s.Sound sources.patches sources.tree group →
        List.Forall₂ (Delivered sources.patches sources.tree group s.heap) s.finalChunks
          chunks := by
  have hpatches := sources.patchesOf
  obtain ⟨s, pass, hto, hloop, hpass, hindex⟩ := splitLoop_spec packetSize hpatches
    (sources.sound_firstState_unit patchSize)
    (Nat.lt_add_right _ (Nat.lt_succ_self sources.patches.length))
  have hread : ∀ (γ : Type) (group : ℕ → γ), s.Sound sources.patches sources.tree group →
      List.Forall₂ (fun is packet => ∃ c,
        (readObject pass.heap (patchDepth sources.patches) packet.sources).map
          (SourceChunk.mk · packet.packetLength) = some c ∧
        Delivered sources.patches sources.tree group s.heap is c) s.finalChunks pass.packets := by
    intro γ group hs
    obtain ⟨pass', hpass', hpassed⟩ := chunkPass_spec packetSize hpatches hs
    obtain rfl := Option.some.inj (hpass.symm.trans hpass')
    rcases hpassed.outcome with ⟨-, hall⟩ | ⟨k, is, hsome, -⟩
    · exact hall.imp fun is packet hpacked =>
        delivered_of_packed hpatches rfl hpassed.sound hpassed.nodes hpacked
    · rw [hindex] at hsome
      nomatch hsome
  obtain ⟨chunks, hchunks, -⟩ := mapM_forall₂
    (hread _ _ (sound_of_splitsTo hpatches (sources.sound_firstState_unit patchSize) hto))
  refine ⟨chunks, s, ?_, hto, ?_, fun γ group hs => ?_⟩
  · rw [chunkSourceSnapshot]
    exact Option.bind_eq_some_iff.2 ⟨pass, hloop, hchunks⟩
  · rintro left right s' ⟨pass', splitIndex, hpass', hindex', -⟩
    obtain rfl := Option.some.inj (hpass.symm.trans hpass')
    rw [hindex] at hindex'
    nomatch hindex'
  · obtain ⟨chunks', hchunks', hall⟩ := mapM_forall₂ (hread γ group hs)
    obtain rfl := Option.some.inj (hchunks.symm.trans hchunks')
    exact hall

/-! ## Where providers are kept together -/

/-- Patches of one provider that are packed together. -/
def groupOf (patches : List SourcePatch) (chunks : List (List ℕ)) (i : ℕ) :
    Option (List ℕ) × Option String :=
  (chunks.find? fun is => i ∈ is, provider patches i)

/-- A chunk has all of a group or none of it. -/
def Closed (patches : List SourcePatch) (chunks₀ chunks : List (List ℕ)) : Prop :=
  ∀ is ∈ chunks, ∀ i ∈ is, ∀ j < patches.length,
    groupOf patches chunks₀ j = groupOf patches chunks₀ i → j ∈ is

theorem find?_of_mem_flatten {chunks : List (List ℕ)} (hnodup : chunks.flatten.Nodup)
    {is : List ℕ} (his : is ∈ chunks) {i : ℕ} (hi : i ∈ is) :
    chunks.find? (fun is => i ∈ is) = some is := by
  obtain ⟨is', hfind⟩ : ∃ is', chunks.find? (fun is => i ∈ is) = some is' := by
    rw [← Option.isSome_iff_exists, List.find?_isSome]
    exact ⟨is, his, by simpa using hi⟩
  have hmem : i ∈ is' := by simpa using List.find?_some hfind
  obtain ⟨k, hk⟩ := List.mem_iff_getElem?.1 his
  obtain ⟨k', hk'⟩ := List.mem_iff_getElem?.1 (List.mem_of_find?_eq_some hfind)
  obtain rfl := eq_of_mem_flatten hnodup hk hk' hi hmem
  rw [hfind, ← hk, ← hk']

theorem provider_of_prefix {patches : List SourcePatch} {i : ℕ} {key : String}
    (h : [key] <+: pathOf patches i) : provider patches i = some key := by
  obtain ⟨rest, hrest⟩ := h
  rw [provider, ← hrest]
  rfl

theorem uniform_groupOf {patches : List SourcePatch} {chunks : List (List ℕ)}
    (hnodup : chunks.flatten.Nodup) {is : List ℕ} (his : is ∈ chunks) :
    Uniform patches (groupOf patches chunks) is := by
  intro i hi j hj i' j' key hi' hj' hikey hjkey
  have hi₂ : provider patches i' = provider patches i := congrArg Prod.snd hi'
  have hj₂ : provider patches j' = provider patches j := congrArg Prod.snd hj'
  rw [groupOf, groupOf, find?_of_mem_flatten hnodup his hi, find?_of_mem_flatten hnodup his hj,
    ← hi₂, ← hj₂, provider_of_prefix hikey, provider_of_prefix hjkey]

theorem nodup_firstState :
    (firstState patchSize sources.tree).finalChunks.flatten.Nodup := by
  rw [(sources.sound_firstState_unit patchSize).flatten]
  exact List.nodup_range

/-- The state in which a tree's patches are grouped by provider and first chunk. -/
theorem sound_firstState_groupOf : (firstState patchSize sources.tree).Sound sources.patches
    sources.tree (groupOf sources.patches (firstState patchSize sources.tree).finalChunks) :=
  sources.sound_firstState patchSize fun _ his =>
    uniform_groupOf (sources.nodup_firstState patchSize) his

/-- Splits that keep providers together keep groups together. -/
theorem closed_of_splitsTo (hkeeps : KeepsProviders patchSize packetSize sources.tree)
    {s : ChunkState} (hto : SplitsTo packetSize (patchDepth sources.patches)
      (firstState patchSize sources.tree) s) :
    Closed sources.patches (firstState patchSize sources.tree).finalChunks s.finalChunks := by
  induction hto with
  | refl =>
    intro is his i hi j _ hgroup
    have hfind : (firstState patchSize sources.tree).finalChunks.find? (fun is => j ∈ is) =
        some is := (congrArg Prod.fst hgroup).trans
      (find?_of_mem_flatten (sources.nodup_firstState patchSize) his hi)
    simpa using List.find?_some hfind
  | @tail s s' hto hstep ih =>
    obtain ⟨left, right, hsplits⟩ := hstep
    have hapart := hkeeps s left right s' hto hsplits
    obtain ⟨⟨before, after, hchunks, hchunks'⟩, -, -⟩ := (hsplits.spec sources.patchesOf
      (sound_of_splitsTo sources.patchesOf (sources.sound_firstState_unit patchSize) hto)).1
    have hwhole : left ++ right ∈ s.finalChunks := by simp [hchunks]
    intro is his i hi j hj hgroup
    have hsame : provider sources.patches j = provider sources.patches i :=
      congrArg Prod.snd hgroup
    rw [hchunks', List.mem_append, List.mem_cons, List.mem_cons] at his
    rcases his with his | rfl | rfl | his
    · exact ih is (by simp [hchunks, his]) i hi j hj hgroup
    · rcases List.mem_append.1 (ih _ hwhole i (List.mem_append_left _ hi) j hj hgroup) with h | h
      · exact h
      · exact absurd hsame.symm (hapart i hi j h)
    · rcases List.mem_append.1 (ih _ hwhole i (List.mem_append_right _ hi) j hj hgroup) with h | h
      · exact absurd hsame (hapart j h i hi)
      · exact h
    · exact ih is (by simp [hchunks, his]) i hi j hj hgroup

/-- A chunk whose leaves are those of its patches. -/
structure Exact (is : List ℕ) (c : SourceChunk) : Prop where
  keyed : c.sources.wellKeyed = true
  within : Within sources.tree c.sources
  paths : ∀ path, path ≠ [] → ((shapeAt path c.sources).isSome ↔
    ∃ i ∈ is, path <+: pathOf sources.patches i)
  fits : c.packetLength ≤ MAX_SAFE_UDP_PAYLOAD ∨ is.length ≤ 1

variable {sources packetSize}

theorem exact_of_delivered {chunks₀ : List (List ℕ)} {s : ChunkState}
    (hs : s.Sound sources.patches sources.tree (groupOf sources.patches chunks₀))
    (hclosed : Closed sources.patches chunks₀ s.finalChunks) {is : List ℕ}
    (his : is ∈ s.finalChunks) {c : SourceChunk}
    (hc : Delivered sources.patches sources.tree (groupOf sources.patches chunks₀) s.heap is c) :
    Exact sources is c := by
  refine ⟨hc.keyed, hc.within, fun path hpath => ⟨fun hsome => ?_, ?_⟩, hc.fits⟩
  · obtain ⟨i, hi, j, hgroup, hprefix⟩ := hc.only path hpath hsome
    have hne : pathOf sources.patches j ≠ [] := by
      intro hnil
      rw [hnil] at hprefix
      exact hpath (List.prefix_nil.1 hprefix)
    exact ⟨j, hclosed is his i hi j (lt_of_pathOf_ne_nil hne) hgroup, hprefix⟩
  · rintro ⟨i, hi, hprefix⟩
    exact hc.has i hi path (isSome_of_original hs.heap.original hprefix)

section Exact

variable {is : List ℕ} {c : SourceChunk} {path : List String}

/-- The leaves of a chunk are those of its patches. -/
theorem Exact.occurs_iff (hc : Exact sources is c) (hlt : ∀ i ∈ is, i < sources.patches.length)
    (hpath : path ≠ []) (hleaf : IsLeafPath sources.tree path) :
    Occurs sources.tree path c ↔ ∃ i ∈ is, pathOf sources.patches i = path := by
  constructor
  · rintro ⟨hleaf', -⟩
    obtain ⟨i, hi, hprefix⟩ := (hc.paths path hpath).1 (isSome_of_isLeafPath hleaf')
    exact ⟨i, hi, pathOf_eq_of_prefix (hlt i hi) hleaf hprefix⟩
  · rintro ⟨i, hi, rfl⟩
    have hsome := (hc.paths _ hpath).2 ⟨i, hi, List.prefix_rfl⟩
    obtain ⟨s, hs⟩ := Option.isSome_iff_exists.1 hsome
    exact ⟨hc.within.isLeafPath hsome hleaf, by rw [hs, hc.within _ s hs]⟩

/-- A chunk of one patch is a single leaf. -/
theorem Exact.single {i : ℕ} (hc : Exact sources [i] c) (hi : i < sources.patches.length) :
    IsLeafPath c.sources path ↔ path = pathOf sources.patches i := by
  obtain ⟨hne, hleaf⟩ := pathOf_spec hi
  have hown : (shapeAt (pathOf sources.patches i) c.sources).isSome :=
    (hc.paths _ hne).2 ⟨i, List.mem_singleton_self i, List.prefix_rfl⟩
  constructor
  · intro h
    have hprefix : path <+: pathOf sources.patches i := by
      by_cases hpath : path = []
      · rw [hpath]
        exact List.nil_prefix
      · obtain ⟨j, hj, hprefix⟩ := (hc.paths path hpath).1 (isSome_of_isLeafPath h)
        rwa [List.mem_singleton.1 hj] at hprefix
    obtain ⟨below, hbelow⟩ := hprefix
    rw [← hbelow] at hown ⊢
    rw [eq_nil_of_isLeafPath h hown, List.append_nil]
  · rintro rfl
    exact hc.within.isLeafPath hown hleaf

/-- **Exact chunks are a partition.** -/
theorem partition_of_exact {chunks : List (List ℕ)} {cs : List SourceChunk}
    (hflatten : chunks.flatten = List.range sources.patches.length)
    (hnonempty : ∀ is ∈ chunks, is ≠ []) (hall : List.Forall₂ (Exact sources) chunks cs) :
    Partition sources.tree cs := by
  have hlt : ∀ is ∈ chunks, ∀ i ∈ is, i < sources.patches.length := by
    intro is his i hi
    obtain ⟨k, hk⟩ := List.mem_iff_getElem?.1 his
    exact (lt_length_iff hflatten).2 ⟨k, is, hk, hi⟩
  have hnodup : chunks.flatten.Nodup := hflatten ▸ List.nodup_range
  have hflip := List.Forall₂.flip (R := fun c is => Exact sources is c) hall
  have hchunk : ∀ i, i < sources.patches.length →
      ∃ (k : ℕ) (is : List ℕ) (c : SourceChunk), chunks[k]? = some is ∧ i ∈ is ∧
        cs[k]? = some c ∧ Exact sources is c := by
    intro i hi
    obtain ⟨k, is, hk, hmem⟩ := (lt_length_iff hflatten).1 hi
    obtain ⟨c, hc, hexact⟩ := getElem?_of_forall₂ hall hk
    exact ⟨k, is, c, hk, hmem, hc, hexact⟩
  refine ⟨fun path hpath hleaf => ?_, ?_, fun c hc => ?_⟩
  · obtain ⟨i, hi, hi'⟩ := exists_patch hpath hleaf
    obtain ⟨k, is, c, hk, hmem, hc, hexact⟩ := hchunk i hi
    refine ⟨k, ⟨c, hc, (hexact.occurs_iff (hlt is (List.mem_of_getElem? hk)) hpath hleaf).2
      ⟨i, hmem, hi'⟩⟩, ?_⟩
    rintro k' ⟨c', hc', hoccurs⟩
    obtain ⟨is', hk', hexact'⟩ := getElem?_of_forall₂ hflip hc'
    have his' := hlt is' (List.mem_of_getElem? hk')
    obtain ⟨j, hj, hj'⟩ := (hexact'.occurs_iff his' hpath hleaf).1 hoccurs
    obtain rfl := pathOf_inj hi (his' j hj) (hi'.trans hj'.symm)
    exact eq_of_mem_flatten hnodup hk' hk hj hmem
  · have hempty : Within sources.tree (.obj []) := by
      intro path s hs
      cases path with
      | nil => exact hs
      | cons key path => nomatch hs
    have hparts : ∀ w ∈ cs.map SourceChunk.sources,
        w.wellKeyed = true ∧ Within sources.tree w := by
      intro w hw
      obtain ⟨c, hc, rfl⟩ := List.mem_map.1 hw
      obtain ⟨k, hk⟩ := List.mem_iff_getElem?.1 hc
      obtain ⟨is, -, hexact⟩ := getElem?_of_forall₂ hflip hk
      exact ⟨hexact.keyed, hexact.within⟩
    obtain ⟨hwithin, hsome⟩ := hempty.foldl_overlay hparts
    rw [List.foldl_map] at hwithin hsome
    refine hwithin.sameTree fun path hpath => (hsome path).2 ?_
    by_cases hne : path = []
    · rw [hne]
      exact Or.inl rfl
    · obtain ⟨s, hs⟩ := Option.isSome_iff_exists.1 hpath
      obtain ⟨leaf, hleafne, hleaf, hprefix⟩ := exists_comparable_leaf hne hs
      obtain ⟨i, hi, rfl⟩ := exists_patch hleafne hleaf
      obtain ⟨k, is, c, -, hmem, hc, hexact⟩ := hchunk i hi
      exact Or.inr ⟨c.sources, List.mem_map_of_mem (List.mem_of_getElem? hc),
        (hexact.paths path hne).2 ⟨i, hmem, hprefix⟩⟩
  · obtain ⟨k, hk⟩ := List.mem_iff_getElem?.1 hc
    obtain ⟨is, hk', hexact⟩ := getElem?_of_forall₂ hflip hk
    have his := List.mem_of_getElem? hk'
    refine hexact.fits.imp_right fun hle => ?_
    obtain ⟨i, rfl⟩ : ∃ i, is = [i] := by
      have := List.length_pos_iff_ne_nil.2 (hnonempty is his)
      exact List.length_eq_one_iff.1 (by omega)
    exact ⟨_, fun path => hexact.single (hlt _ his i (List.mem_singleton_self i))⟩

end Exact

/-! ## Where a provider is split -/

/-- No chunk has two patches of which one has got what the other has. -/
structure Leaked (patches : List SourcePatch) (o j : ℕ) (s : ChunkState) : Prop where
  apart : ∀ is ∈ s.finalChunks, o ∈ is → j ∉ is
  reaches : ∀ path, path <+: pathOf patches j → (cellAt s.heap (.object (.node o 0)) path).isSome

theorem leaked_of_splitsTo {o j : ℕ} {s s' : ChunkState}
    (hs : s.Sound sources.patches sources.tree fun _ => ())
    (hleaked : Leaked sources.patches o j s)
    (hto : SplitsTo packetSize (patchDepth sources.patches) s s') :
    Leaked sources.patches o j s' := by
  induction hto with
  | refl => exact hleaked
  | @tail s₁ s₂ hto hstep ih =>
    obtain ⟨left, right, hsplits⟩ := hstep
    obtain ⟨⟨before, after, hchunks, hchunks'⟩, -, hkept⟩ :=
      (hsplits.spec sources.patchesOf (sound_of_splitsTo sources.patchesOf hs hto)).1
    refine ⟨fun is his ho hj => ?_, fun path hpath => hkept.isSome_cellAt (ih.reaches path hpath)⟩
    obtain ⟨is', his', hsub⟩ : ∃ is' ∈ s₁.finalChunks, is ⊆ is' := by
      rw [hchunks', List.mem_append, List.mem_cons, List.mem_cons] at his
      rcases his with his | rfl | rfl | his
      · exact ⟨is, by simp [hchunks, his], List.Subset.refl _⟩
      · exact ⟨_, by rw [hchunks]; simp, List.subset_append_left _ right⟩
      · exact ⟨_, by rw [hchunks]; simp, List.subset_append_right left _⟩
      · exact ⟨is, by simp [hchunks, his], List.Subset.refl _⟩
    exact ih.apart is' his' (hsub ho) (hsub hj)

/-- **The leak.** Patches of one provider that a split separates have been merged before. -/
theorem exists_leaked {s s' : ChunkState} {left right : List ℕ}
    (hs : s.Sound sources.patches sources.tree fun _ => ())
    (hsplits : Splits packetSize (patchDepth sources.patches) s left right s') {i j : ℕ}
    (hi : i ∈ left) (hj : j ∈ right)
    (hsame : provider sources.patches i = provider sources.patches j) :
    ∃ o < sources.patches.length, j < sources.patches.length ∧ Leaked sources.patches o j s' := by
  obtain ⟨⟨⟨before, after, hchunks, hchunks'⟩, hmet, -⟩, hs'⟩ := hsplits.spec sources.patchesOf hs
  have hleft : s'.finalChunks[before.length]? = some left := by simp [hchunks']
  have hright : s'.finalChunks[before.length + 1]? = some right := by simp [hchunks']
  have hlt : ∀ i ∈ left, i < sources.patches.length :=
    fun i hi => (lt_length_iff hs'.flatten).2 ⟨_, left, hleft, hi⟩
  obtain ⟨key, path, hpath⟩ := List.exists_cons_of_ne_nil (pathOf_spec (hlt i hi)).1
  have hstarts : ∀ i, provider sources.patches i = some key →
      [key] <+: pathOf sources.patches i := by
    intro i hprovider
    obtain ⟨rest, hrest⟩ := List.head?_eq_some_iff.1 hprovider
    exact ⟨rest, hrest.symm⟩
  have hikey : provider sources.patches i = some key := by rw [provider, hpath]; rfl
  obtain ⟨o, ho, hreaches⟩ := hmet left right rfl i hi j hj key (hstarts i hikey)
    (hstarts j (hsame ▸ hikey))
  refine ⟨o, hlt o ho, (lt_length_iff hs'.flatten).2 ⟨_, right, hright, hj⟩,
    fun is his ho' hj' => ?_, hreaches⟩
  have hnodup : s'.finalChunks.flatten.Nodup := hs'.flatten ▸ List.nodup_range
  obtain ⟨k, hk⟩ := List.mem_iff_getElem?.1 his
  have := eq_of_mem_flatten hnodup hk hleft ho' ho
  have := eq_of_mem_flatten hnodup hk hright hj' hj
  omega

/-- What has leaked is in two chunks. -/
theorem not_partition_of_leaked {s : ChunkState} {cs : List SourceChunk}
    (hs : s.Sound sources.patches sources.tree fun _ => ())
    (hall : List.Forall₂ (Delivered sources.patches sources.tree (fun _ => ()) s.heap)
      s.finalChunks cs) {o j : ℕ} (ho : o < sources.patches.length)
    (hj : j < sources.patches.length) (hleaked : Leaked sources.patches o j s) :
    ¬ Partition sources.tree cs := by
  intro hpartition
  obtain ⟨hne, hleaf⟩ := pathOf_spec hj
  have hoccurs : ∀ i, i < sources.patches.length →
      (∀ path, path <+: pathOf sources.patches j →
        (cellAt s.heap (.object (.node i 0)) path).isSome) →
      ∃ (k : ℕ) (is : List ℕ), s.finalChunks[k]? = some is ∧ i ∈ is ∧
        ∃ c, cs[k]? = some c ∧ Occurs sources.tree (pathOf sources.patches j) c := by
    intro i hi hreaches
    obtain ⟨k, is, hk, hmem⟩ := (lt_length_iff hs.flatten).1 hi
    obtain ⟨c, hc, hdelivered⟩ := getElem?_of_forall₂ hall hk
    have hsome := hdelivered.has i hmem _ (hreaches _ List.prefix_rfl)
    obtain ⟨shape, hshape⟩ := Option.isSome_iff_exists.1 hsome
    exact ⟨k, is, hk, hmem, c, hc, hdelivered.within.isLeafPath hsome hleaf,
      by rw [hshape, hdelivered.within _ _ hshape]⟩
  obtain ⟨k, is, hk, hmem, hin⟩ := hoccurs o ho hleaked.reaches
  obtain ⟨k', is', hk', hmem', hin'⟩ := hoccurs j hj
    fun path hpath => isSome_of_original hs.heap.original hpath
  obtain rfl := (hpartition.once _ hne hleaf).unique hin hin'
  obtain rfl := Option.some.inj (hk.symm.trans hk')
  exact hleaked.apart is (List.mem_of_getElem? hk) hmem hmem'

theorem splits_unique {fuel : ℕ} {s s₁ s₂ : ChunkState}
    (h₁ : ∃ left right, Splits packetSize fuel s left right s₁)
    (h₂ : ∃ left right, Splits packetSize fuel s left right s₂) : s₁ = s₂ := by
  obtain ⟨left, right, pass, splitIndex, hpass, hindex, -, rfl⟩ := h₁
  obtain ⟨left', right', pass', splitIndex', hpass', hindex', -, rfl⟩ := h₂
  obtain rfl := Option.some.inj (hpass.symm.trans hpass')
  obtain rfl := Option.some.inj (hindex.symm.trans hindex')
  rfl

/-- Where nothing is split anymore, every state on the way has led there. -/
theorem splitsTo_of_last {fuel : ℕ} {s₀ s s' : ChunkState}
    (hlast : ∀ left right s', ¬ Splits packetSize fuel s left right s')
    (hto : SplitsTo packetSize fuel s₀ s) (hto' : SplitsTo packetSize fuel s₀ s') :
    SplitsTo packetSize fuel s' s := by
  have hunique : Relator.RightUnique fun s s' =>
      ∃ left right, Splits packetSize fuel s left right s' :=
    fun _ _ _ => splits_unique
  rcases Relation.ReflTransGen.total_of_right_unique hunique hto' hto with h | h
  · exact h
  · rcases h.cases_head with rfl | ⟨s₁, ⟨left, right, hsplits⟩, -⟩
    · exact .refl
    · exact absurd hsplits (hlast left right s₁)

end SourceTree

/-- **When the chunks are a partition.** The chunks of a sources tree are always returned, and are
a partition of its leaves exactly when no pass splits a chunk between two patches of one
provider. -/
theorem partition_iff_keepsProviders (sources : SourceTree) (patchSize : JsValue → ℕ)
    (packetSize : JsValue → ℕ → ℕ → ℕ) :
    ∃ chunks, chunkSourceSnapshot patchSize packetSize sources.tree = some chunks ∧
      (Partition sources.tree chunks ↔ KeepsProviders patchSize packetSize sources.tree) := by
  obtain ⟨chunks, s, hresult, hto, hlast, hall⟩ :=
    sources.chunkSourceSnapshot_spec patchSize packetSize
  have hpatches := sources.patchesOf
  have hfirst := sources.sound_firstState_unit patchSize
  refine ⟨chunks, hresult, fun hpartition => ?_, fun hkeeps => ?_⟩
  · intro s₁ left right s₂ hto₁ hsplits i hi j hj hsame
    have hs₁ := sound_of_splitsTo hpatches hfirst hto₁
    have hto₂ : SplitsTo packetSize (patchDepth sources.patches)
        (firstState patchSize sources.tree) s₂ := hto₁.tail ⟨left, right, hsplits⟩
    have hs₂ := sound_of_splitsTo hpatches hfirst hto₂
    obtain ⟨o, ho, hj', hleaked⟩ := SourceTree.exists_leaked hs₁ hsplits hi hj hsame
    have hs := sound_of_splitsTo hpatches hfirst hto
    refine SourceTree.not_partition_of_leaked hs (hall _ _ hs) ho hj' ?_ hpartition
    exact SourceTree.leaked_of_splitsTo hs₂ hleaked
      (SourceTree.splitsTo_of_last hlast hto hto₂)
  · have hs := sound_of_splitsTo hpatches (sources.sound_firstState_groupOf patchSize) hto
    have hclosed := sources.closed_of_splitsTo patchSize packetSize hkeeps hto
    refine SourceTree.partition_of_exact hs.flatten hs.nonempty ?_
    have hdelivered := hall _ _ hs
    refine List.forall₂_iff_get.2 ⟨hdelivered.length_eq, fun k hk hk' => ?_⟩
    exact SourceTree.exact_of_delivered hs hclosed (List.get_mem _ _)
      (hdelivered.get hk hk')

/-- Two leaves of one provider. -/
def splitTree : SourceTree where
  fields := [("gps", .obj [("a", .num (.finite 1)), ("b", .num (.finite 2))])]
  keyed := by decide +kernel
  plain := by decide +kernel

/-- Packets in which a leaf of a provider takes 800 bytes. -/
def leafPackets : JsValue → ℕ → ℕ → ℕ
  | .obj [(_, .obj leaves)], _, _ => 800 * leaves.length
  | _, _, _ => 0

/-- Both leaves are still in the first chunk after the split, which is over the safe size. -/
theorem chunks_splitTree :
    chunkSourceSnapshot (fun _ => 800) leafPackets splitTree.tree =
        some [⟨splitTree.tree, 1600⟩,
          ⟨.obj [("gps", .obj [("b", .num (.finite 2))])], 800⟩] ∧
      ∀ chunks, chunkSourceSnapshot (fun _ => 800) leafPackets splitTree.tree = some chunks →
        ¬ Partition splitTree.tree chunks := by
  have hchunks : chunkSourceSnapshot (fun _ => 800) leafPackets splitTree.tree =
      some [⟨splitTree.tree, 1600⟩,
        ⟨.obj [("gps", .obj [("b", .num (.finite 2))])], 800⟩] := by
    decide +kernel
  refine ⟨hchunks, fun chunks hresult hpartition => ?_⟩
  obtain rfl := Option.some.inj (hchunks.symm.trans hresult)
  have hleaf : ∀ v : JsValue, leafValueAt ["gps", "b"] v = some (.num (.finite 2)) →
      IsLeafPath v ["gps", "b"] ∧ shapeAt ["gps", "b"] v = some (.atom (.num (.finite 2))) :=
    fun v hv => ⟨isLeafPath_iff.2 (by rw [hv]; rfl), shapeAt_of_leafValueAt hv⟩
  have hfirst : ∃ c, [SourceChunk.mk splitTree.tree 1600,
      ⟨.obj [("gps", .obj [("b", .num (.finite 2))])], 800⟩][0]? = some c ∧
      Occurs splitTree.tree ["gps", "b"] c :=
    ⟨_, rfl, (hleaf _ (by decide +kernel)).1, rfl⟩
  have hsecond : ∃ c, [SourceChunk.mk splitTree.tree 1600,
      ⟨.obj [("gps", .obj [("b", .num (.finite 2))])], 800⟩][1]? = some c ∧
      Occurs splitTree.tree ["gps", "b"] c :=
    ⟨_, rfl, (hleaf _ (by decide +kernel)).1, by decide +kernel⟩
  have hkeys := (hpartition.once ["gps", "b"] (by simp) (hleaf _ (by decide +kernel)).1).unique
    hfirst hsecond
  nomatch hkeys

end EdgeLink
