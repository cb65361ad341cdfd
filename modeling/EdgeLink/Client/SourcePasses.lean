import EdgeLink.Client.SharedPatches
import Mathlib.Logic.Relation

/-!
# Passes over the chunks

What building chunks does to the objects of the patches. The patches are divided into groups, and
a group is `Uniform` in a chunk where the patches of the chunk that can meet are of one group: then
objects of one group only ever refer to objects of that group, and hold its paths only. Where a
chunk is built of patches that are then separated, they have met already.

* `buildSourceChunk_spec`: the chunk has what its patches have, and what their groups have at most.
* `met_of_build`: patches with the same first key have met in the chunk.
* `chunkPass_spec`: a pass builds all chunks, or comes to one that is split.
-/

namespace EdgeLink

open JsValue

section Groups

variable {γ : Type*} (patches : List SourcePatch) (group : ℕ → γ)

/-- A cell at a path is one of a group of patches. -/
structure Belongs (g : γ) (path : List String) (c : Cell Address JsValue) : Prop where
  source : ∃ i, group i = g ∧ path <+: pathOf patches i
  object : ∀ i depth, c = .object (.node i depth) → group i = g

/-- The objects of patches hold what belongs to their groups. -/
def OwnNodes (h : SourceHeap) : Prop :=
  ∀ i depth key c, (h (.node i depth)).lookup key = some c →
    Belongs patches group (group i) (place patches (.node i depth) ++ [key]) c

/-- A chunk holds what belongs to the groups of its patches. -/
def OwnChunk (is : List ℕ) (fields : List (String × Cell Address JsValue)) : Prop :=
  ∀ key c, fields.lookup key = some c → ∃ i ∈ is, Belongs patches group (group i) [key] c

/-- Patches of a chunk are of one group where their groups have a first key in common. -/
def Uniform (is : List ℕ) : Prop :=
  ∀ i ∈ is, ∀ j ∈ is, ∀ i' j' key, group i' = group i → group j' = group j →
    [key] <+: pathOf patches i' → [key] <+: pathOf patches j' → group i = group j

variable {patches group} {tree : JsValue}

theorem ownNodes_buildSourcePatches : OwnNodes patches group (buildSourcePatches patches) := by
  intro i depth key c hc
  obtain ⟨i', depth', p, heq, hi, hkey, rfl⟩ := lookup_buildSourcePatches hc
  obtain ⟨rfl, rfl⟩ := Address.node.inj heq
  refine ⟨⟨i, rfl, ?_⟩, fun j depth' hcell => ?_⟩
  · rw [place, pathOf, hi, Option.elim_some, ← take_succ_of_getElem? hkey]
    exact List.take_prefix _ _
  · rw [SourcePatch.cell] at hcell
    split at hcell
    · simp only [Cell.object.injEq, Address.node.injEq] at hcell
      rw [hcell.1]
    · split at hcell
      · simp only [Cell.object.injEq, Address.node.injEq] at hcell
        rw [hcell.1]
      · cases hcell

/-- An object that is referred to is one of a patch. -/
theorem exists_node {h : SourceHeap} (hplaced : PlacedIn patches tree h) {a b : Address}
    {key : String} (hb : (h a).lookup key = some (.object b)) : ∃ i depth, b = .node i depth := by
  cases b with
  | node i depth => exact ⟨i, depth, rfl⟩
  | chunk m => exact absurd rfl (ne_chunk_of_object hplaced hb m)

/-- What may be merged into what while the chunk of some patches is built. -/
def SameGroup (group : ℕ → γ) (made : ℕ) (is : List ℕ) (target patch : Address) : Prop :=
  (target = .chunk made ∧ ∃ i ∈ is, patch = .node i 0) ∨
    ∃ i j depth depth', target = .node i depth ∧ patch = .node j depth' ∧ group i = group j

theorem mergeInvariant_own {made : ℕ} {is : List ℕ} (huniform : Uniform patches group is) :
    MergeInvariant patches tree
      (fun h => OwnNodes patches group h ∧ OwnChunk patches group is (h (.chunk made)))
      (SameGroup group made is) where
  write {h target patch key c} hplaced hown hR hplace hc hnone := by
    obtain ⟨hnodes, hchunk⟩ := hown
    rcases hR with ⟨rfl, i, hi, rfl⟩ | ⟨i, j, depth, depth', rfl, rfl, hgroup⟩
    · refine ⟨fun j depth key' c' hc' => ?_, fun key' c' hc' => ?_⟩
      · rw [write_of_ne (by simp)] at hc'
        exact hnodes j depth key' c' hc'
      · rw [lookup_write] at hc'
        split_ifs at hc' with heq
        · obtain rfl := Option.some.inj hc'
          obtain ⟨-, rfl⟩ := heq
          exact ⟨i, hi, by simpa [place] using hnodes i 0 _ _ hc⟩
        · exact hchunk key' c' hc'
    · refine ⟨fun i' depth₁ key' c' hc' => ?_, fun key' c' hc' => ?_⟩
      · rw [lookup_write] at hc'
        split_ifs at hc' with heq
        · obtain rfl := Option.some.inj hc'
          obtain ⟨haddress, rfl⟩ := heq
          obtain ⟨rfl, rfl⟩ := Address.node.inj haddress
          rw [hplace, hgroup]
          exact hnodes j depth' _ _ hc
        · exact hnodes i' depth₁ key' c' hc'
      · rw [write_of_ne (by simp)] at hc'
        exact hchunk key' c' hc'
  below {h target patch key current value} hplaced hown hR hplace hvalue hcurrent := by
    obtain ⟨hnodes, hchunk⟩ := hown
    obtain ⟨i₁, depth₁, rfl⟩ := exists_node hplaced hcurrent
    obtain ⟨i₂, depth₂, rfl⟩ := exists_node hplaced hvalue
    refine Or.inr ⟨i₁, i₂, depth₁, depth₂, rfl, rfl, ?_⟩
    rcases hR with ⟨rfl, i, hi, rfl⟩ | ⟨i, j, depth, depth', rfl, rfl, hgroup⟩
    · -- the two patches of the chunk have a first key in common
      obtain ⟨j, hj, hbelongs⟩ := hchunk key _ hcurrent
      have hbelongs' := hnodes i 0 key _ hvalue
      obtain ⟨j', hj', hjpath⟩ := hbelongs.source
      obtain ⟨i', hi', hipath⟩ := hbelongs'.source
      rw [hbelongs.object i₁ depth₁ rfl, hbelongs'.object i₂ depth₂ rfl]
      exact huniform j hj i hi j' i' key hj' hi' hjpath (by simpa [place] using hipath)
    · rw [(hnodes i depth key _ hcurrent).object i₁ depth₁ rfl,
        (hnodes j depth' key _ hvalue).object i₂ depth₂ rfl, hgroup]

/-- What can be reached from an object of a patch is on a path of its group. -/
theorem exists_prefix_of_cellAt {h : SourceHeap} (hplaced : PlacedIn patches tree h)
    (hnodes : OwnNodes patches group h) {path : List String} (hpath : path ≠ []) {i depth : ℕ}
    (hc : (cellAt h (.object (.node i depth)) path).isSome) :
    ∃ j, group j = group i ∧ place patches (.node i depth) ++ path <+: pathOf patches j := by
  induction path generalizing i depth with
  | nil => exact absurd rfl hpath
  | cons key path ih =>
    obtain ⟨c, hlookup, hbelow⟩ := isSome_cellAt_cons.1 hc
    have hbelongs := hnodes i depth key c hlookup
    cases path with
    | nil => exact hbelongs.source
    | cons key' path =>
      cases c with
      | value v => nomatch hbelow
      | object b =>
        obtain ⟨i', depth', rfl⟩ := exists_node hplaced hlookup
        obtain ⟨j, hj, hprefix⟩ := ih (List.cons_ne_nil _ _) hbelow
        refine ⟨j, hj.trans (hbelongs.object i' depth' rfl), ?_⟩
        rwa [hplaced.object hlookup, List.append_assoc] at hprefix

/-- What can be reached from a chunk is on a path of a group of its patches. -/
theorem exists_prefix_of_chunk {h : SourceHeap} (hplaced : PlacedIn patches tree h)
    (hnodes : OwnNodes patches group h) {made : ℕ} {is : List ℕ}
    (hchunk : OwnChunk patches group is (h (.chunk made))) {path : List String} (hpath : path ≠ [])
    (hc : (cellAt h (.object (.chunk made)) path).isSome) :
    ∃ i ∈ is, ∃ j, group j = group i ∧ path <+: pathOf patches j := by
  obtain ⟨key, path, rfl⟩ := List.exists_cons_of_ne_nil hpath
  obtain ⟨c, hlookup, hbelow⟩ := isSome_cellAt_cons.1 hc
  obtain ⟨i, hi, hbelongs⟩ := hchunk key c hlookup
  refine ⟨i, hi, ?_⟩
  cases path with
  | nil => exact hbelongs.source
  | cons key' path =>
    cases c with
    | value v => nomatch hbelow
    | object b =>
      obtain ⟨i', depth', rfl⟩ := exists_node hplaced hlookup
      obtain ⟨j, hj, hprefix⟩ :=
        exists_prefix_of_cellAt hplaced hnodes (List.cons_ne_nil _ _) hbelow
      refine ⟨j, hj.trans (hbelongs.object i' depth' rfl), ?_⟩
      rwa [hplaced.object hlookup, place, List.nil_append] at hprefix

end Groups

/-! ## Building a chunk -/

/-- A heap between the building of two chunks. -/
structure SoundHeap (patches : List SourcePatch) (tree : JsValue) (made : ℕ) (h : SourceHeap) :
    Prop where
  placed : PlacedIn patches tree h
  fresh : ∀ m, made ≤ m → h (.chunk m) = []
  original : Extends (buildSourcePatches patches) h

/-- A later heap has everything, and the chunks before the `made`-th are the same. -/
structure Later (made : ℕ) (h h' : SourceHeap) : Prop where
  kept : Extends h h'
  chunks : ∀ m, m < made → h' (.chunk m) = h (.chunk m)

theorem Later.refl (made : ℕ) (h : SourceHeap) : Later made h h :=
  ⟨Extends.refl h, fun _ _ => rfl⟩

/-- The first of some patches with a first key in common with the others reaches all they reach. -/
def Met (patches : List SourcePatch) (h : SourceHeap) (is : List ℕ) : Prop :=
  ∀ left right, is = left ++ right → ∀ i ∈ left, ∀ j ∈ right, ∀ key,
    [key] <+: pathOf patches i → [key] <+: pathOf patches j →
      ∃ o ∈ left, ∀ path, path <+: pathOf patches j →
        (cellAt h (.object (.node o 0)) path).isSome

/-- A chunk reaches what its patches reached in an earlier heap. -/
def ChunkCarries (h₀ h : SourceHeap) (is : List ℕ) (root : Address) : Prop :=
  ∀ i ∈ is, ∀ path, (cellAt h₀ (.object (.node i 0)) path).isSome →
    (cellAt h (.object root) path).isSome

section Building

variable {γ : Type*} {patches : List SourcePatch} {group : ℕ → γ} {tree : JsValue} {made : ℕ}
  {h : SourceHeap} {is : List ℕ}

theorem isSome_of_original (hkept : Extends (buildSourcePatches patches) h) {i : ℕ}
    {path : List String} (hpath : path <+: pathOf patches i) :
    (cellAt h (.object (.node i 0)) path).isSome :=
  hkept.isSome_cellAt (isSome_cellAt_patch hpath)

/-- The properties of a chunk are taken from patches of which it is built. -/
theorem mergeInvariant_taken (made : ℕ) (is : List ℕ) : MergeInvariant patches tree
    (fun h => ∀ key c, (h (.chunk made)).lookup key = some c →
      ∃ o ∈ is, (h (.node o 0)).lookup key = some c)
    (fun target patch => target = .chunk made → ∃ o ∈ is, patch = .node o 0) where
  write {h target patch key c} _ htaken hR _ hc hnone key' c' hc' := by
    have hgrows : Extends h (h.write target key c) := extends_write hnone
    rw [lookup_write] at hc'
    split_ifs at hc' with heq
    · obtain ⟨htarget, rfl⟩ := heq
      obtain rfl := Option.some.inj hc'
      obtain ⟨o, ho, rfl⟩ := hR htarget.symm
      exact ⟨o, ho, hgrows _ _ _ hc⟩
    · obtain ⟨o, ho, hlookup⟩ := htaken key' c' hc'
      exact ⟨o, ho, hgrows _ _ _ hlookup⟩
  below hplaced _ _ _ _ hcurrent heq := absurd heq.symm (ne_chunk_of_object hplaced hcurrent made)

/-- **Meeting in a chunk.** Where patches with a first key in common are merged into one chunk, the
one that came first has got what is at the paths of the others. -/
theorem met_of_build (hpatches : PatchesOf patches tree) (hsound : SoundHeap patches tree made h)
    {h' : SourceHeap} (hbuild : buildSourceChunk (patchDepth patches) h made is = some h') :
    Met patches h' is := by
  rintro left right rfl i hi j hj key hikey hjkey
  rw [buildSourceChunk_eq (hsound.fresh made le_rfl), List.foldlM_append] at hbuild
  obtain ⟨h₁, hleft, hplaced₁, htaken, hgrows₁, hhas₁⟩ := mergePatches_spec hpatches
    (mergeInvariant_taken made left) hsound.placed
    (fun key c hc => by rw [hsound.fresh made le_rfl] at hc; nomatch hc)
    made left (fun o ho _ => ⟨o, ho, rfl⟩)
  obtain ⟨h₂, hright, -, -, hgrows₂, hhas₂⟩ := mergePatches_spec hpatches
    (I := fun _ => True) (R := fun _ _ => True) ⟨fun _ _ _ _ _ _ => trivial,
      fun _ _ _ _ _ _ => trivial⟩ hplaced₁ trivial made right (fun _ _ => trivial)
  have hbuild : h₂ = h' := by
    rw [hleft] at hbuild
    exact Option.some.inj (hright.symm.trans hbuild)
  subst hbuild
  obtain ⟨c, hlookup, -⟩ := isSome_cellAt_cons.1
    (hhas₁ i hi [key] (isSome_of_original hsound.original hikey))
  obtain ⟨o, ho, howner⟩ := htaken key c hlookup
  refine ⟨o, ho, fun path hpath => ?_⟩
  have hchunk := hhas₂ j hj path
    (isSome_of_original (hsound.original.trans hgrows₁.kept) hpath)
  cases path with
  | nil => rfl
  | cons key' path =>
    obtain rfl : key = key' := by
      obtain ⟨rest, hrest⟩ := hjkey
      obtain ⟨rest', hrest'⟩ := hpath
      exact (List.cons.inj (hrest.trans hrest'.symm)).1
    rw [cellAt, hgrows₂.kept _ _ _ hlookup] at hchunk
    rwa [cellAt, hgrows₂.kept _ _ _ howner]

/-- What building a chunk from `h` to `h'` has done. -/
structure BuiltFrom (patches : List SourcePatch) (tree : JsValue) (group : ℕ → γ) (made : ℕ)
    (is : List ℕ) (h h' : SourceHeap) : Prop where
  sound : SoundHeap patches tree (made + 1) h'
  later : Later made h h'
  nodes : OwnNodes patches group h'
  chunk : OwnChunk patches group is (h' (.chunk made))
  carries : ChunkCarries h h' is (.chunk made)
  met : Met patches h' is

/-- **Building a chunk.** -/
theorem buildSourceChunk_spec (hpatches : PatchesOf patches tree)
    (hsound : SoundHeap patches tree made h) (hnodes : OwnNodes patches group h)
    (huniform : Uniform patches group is) :
    ∃ h', buildSourceChunk (patchDepth patches) h made is = some h' ∧
      BuiltFrom patches tree group made is h h' := by
  have hempty : OwnChunk patches group is (h (.chunk made)) := by
    intro key c hc
    rw [hsound.fresh made le_rfl] at hc
    nomatch hc
  obtain ⟨h', hresult, hplaced, ⟨hnodes', hchunk⟩, hgrows, hhas⟩ := mergePatches_spec hpatches
    (mergeInvariant_own huniform) hsound.placed ⟨hnodes, hempty⟩ made is
    (fun i hi => Or.inl ⟨rfl, i, hi, rfl⟩)
  have hbuild := (buildSourceChunk_eq (hsound.fresh made le_rfl) is).trans hresult
  have hother : ∀ m, m ≠ made → h' (.chunk m) = h (.chunk m) :=
    fun m hm => hgrows.chunks m (by simpa using hm)
  refine ⟨h', hbuild, ⟨hplaced, fun m hm => ?_, hsound.original.trans hgrows.kept⟩,
    ⟨hgrows.kept, fun m hm => hother m (by omega)⟩, hnodes', hchunk, hhas,
    met_of_build hpatches hsound hbuild⟩
  rw [hother m (by omega)]
  exact hsound.fresh m (by omega)

end Building

/-! ## Passes -/

section Passes

variable {γ : Type*} {patches : List SourcePatch} {group : ℕ → γ} {tree : JsValue}
  {packetSize : JsValue → ℕ → ℕ → ℕ}

/-- What a packet that is not split is, in the heap that a pass from `h₀` ends with. -/
structure Packed (patches : List SourcePatch) (group : ℕ → γ) (h₀ h : SourceHeap) (is : List ℕ)
    (packet : BuiltChunk) : Prop where
  chunk : ∃ m, packet.sources = .chunk m ∧ ChunkCarries h₀ h is (.chunk m) ∧
    OwnChunk patches group is (h (.chunk m))
  fits : packet.packetLength ≤ MAX_SAFE_UDP_PAYLOAD ∨ is.length ≤ 1

theorem Packed.earlier {h₀ h₁ h : SourceHeap} {is : List ℕ} {packet : BuiltChunk}
    (hpacked : Packed patches group h₁ h is packet) (hkept : Extends h₀ h₁) :
    Packed patches group h₀ h is packet := by
  obtain ⟨⟨m, hm, hcarries, hown⟩, hfits⟩ := hpacked
  refine ⟨⟨m, hm, fun i hi path hpath => ?_, hown⟩, hfits⟩
  exact hcarries i hi path (hkept.isSome_cellAt hpath)

/-- What a pass over some chunks, the first of them the `i`-th, has done. -/
structure Passed (patches : List SourcePatch) (tree : JsValue) (group : ℕ → γ) (made i : ℕ)
    (chunks : List (List ℕ)) (h : SourceHeap) (pass : ChunkPass) : Prop where
  sound : SoundHeap patches tree (made + pass.packets.length) pass.heap
  later : Later made h pass.heap
  nodes : OwnNodes patches group pass.heap
  outcome : (pass.splitIndex = none ∧
      List.Forall₂ (Packed patches group h pass.heap) chunks pass.packets) ∨
    ∃ k is, pass.splitIndex = some (i + k) ∧ chunks[k]? = some is ∧ 1 < is.length ∧
      Met patches pass.heap is

/-- **A pass.** -/
theorem buildPackets_spec (hpatches : PatchesOf patches tree) (total : ℕ)
    {chunks : List (List ℕ)} {h : SourceHeap} {made i : ℕ}
    (hsound : SoundHeap patches tree made h) (hnodes : OwnNodes patches group h)
    (huniform : ∀ is ∈ chunks, Uniform patches group is) :
    ∃ pass, buildPackets packetSize (patchDepth patches) total h made i chunks = some pass ∧
      Passed patches tree group made i chunks h pass := by
  induction chunks generalizing h made i with
  | nil => exact ⟨_, rfl, hsound, Later.refl made h, hnodes, Or.inl ⟨rfl, .nil⟩⟩
  | cons is chunks ih =>
    obtain ⟨his, hrest⟩ := List.forall_mem_cons.1 huniform
    obtain ⟨h₁, hbuild, hbuilt⟩ := buildSourceChunk_spec hpatches hsound hnodes his
    obtain ⟨v, hread, -⟩ := readObject_spec (a := .chunk made) hpatches hbuilt.sound.placed
      (Nat.le_add_right (patchDepth patches) _)
    rw [buildPackets, hbuild, Option.bind_eq_bind, Option.bind_some, hread, Option.bind_eq_bind,
      Option.bind_some]
    dsimp only
    split_ifs with hsplit
    · exact ⟨_, rfl, hbuilt.sound, hbuilt.later, hbuilt.nodes,
        Or.inr ⟨0, is, rfl, rfl, hsplit.2, hbuilt.met⟩⟩
    · obtain ⟨pass, hpass, hpassed⟩ := ih (i := i + 1) hbuilt.sound hbuilt.nodes hrest
      rw [hpass]
      refine ⟨_, rfl, ?_, ⟨hbuilt.later.kept.trans hpassed.later.kept, fun m hm => ?_⟩,
        hpassed.nodes, ?_⟩
      · have hsound' := hpassed.sound
        rwa [Nat.add_right_comm] at hsound'
      · exact (hpassed.later.chunks m (by omega)).trans (hbuilt.later.chunks m hm)
      · rcases hpassed.outcome with ⟨hnone, hall⟩ | ⟨k, is', hsome, hk, hlength, hmet⟩
        · refine Or.inl ⟨hnone, .cons ⟨⟨made, rfl, fun j hj path hpath => ?_, ?_⟩, ?_⟩
            (hall.imp fun is packet hpacked => hpacked.earlier hbuilt.later.kept)⟩
          · exact hpassed.later.kept.isSome_cellAt (hbuilt.carries j hj path hpath)
          · rw [hpassed.later.chunks made (by omega)]
            exact hbuilt.chunk
          · by_contra hboth
            push Not at hboth
            exact hsplit hboth
        · exact Or.inr ⟨k + 1, is', by rw [hsome]; congr 1; omega, hk, hlength, hmet⟩

/-- The state of the outer loop. -/
structure ChunkState.Sound (patches : List SourcePatch) (tree : JsValue) (group : ℕ → γ)
    (s : ChunkState) : Prop where
  heap : SoundHeap patches tree s.made s.heap
  nodes : OwnNodes patches group s.heap
  uniform : ∀ is ∈ s.finalChunks, Uniform patches group is
  flatten : s.finalChunks.flatten = List.range patches.length
  nonempty : ∀ is ∈ s.finalChunks, is ≠ []

/-- The patches are those of the chunks. -/
theorem lt_length_iff {n : ℕ} {chunks : List (List ℕ)} (hflatten : chunks.flatten = List.range n)
    {i : ℕ} : i < n ↔ ∃ (k : ℕ) (is : List ℕ), chunks[k]? = some is ∧ i ∈ is := by
  rw [← List.mem_range, ← hflatten]
  exact mem_flatten_iff_getElem?

theorem halves_spec (is : List ℕ) (hlength : 1 < is.length) :
    is = (halves is).1 ++ (halves is).2 ∧ (halves is).1 ≠ [] ∧ (halves is).2 ≠ [] := by
  rw [halves, List.splitAt_eq]
  refine ⟨(List.take_append_drop _ is).symm, ?_, ?_⟩
  · rw [← List.length_pos_iff_ne_nil, List.length_take]
    omega
  · rw [← List.length_pos_iff_ne_nil, List.length_drop]
    omega

theorem Uniform.sublist {is is' : List ℕ} (h : Uniform patches group is) (hsub : is' ⊆ is) :
    Uniform patches group is' :=
  fun i hi j hj => h i (hsub hi) j (hsub hj)

/-- A pass from `s` splits a chunk in two, and leads to `s'`. -/
def Splits (packetSize : JsValue → ℕ → ℕ → ℕ) (fuel : ℕ) (s : ChunkState) (left right : List ℕ)
    (s' : ChunkState) : Prop :=
  ∃ pass splitIndex, chunkPass packetSize fuel s = some pass ∧ pass.splitIndex = some splitIndex ∧
    halves (s.finalChunks.getD splitIndex []) = (left, right) ∧ s' = s.next pass splitIndex

/-- What a pass does that splits a chunk. -/
structure SplitSpec (patches : List SourcePatch) (s : ChunkState) (left right : List ℕ)
    (s' : ChunkState) : Prop where
  chunks : ∃ before after, s.finalChunks = before ++ (left ++ right) :: after ∧
    s'.finalChunks = before ++ left :: right :: after
  met : Met patches s'.heap (left ++ right)
  kept : Extends s.heap s'.heap

/-- **What a pass leads to.** Either all chunks are built, or one is split. -/
theorem chunkPass_spec (packetSize : JsValue → ℕ → ℕ → ℕ) (hpatches : PatchesOf patches tree)
    {s : ChunkState} (hs : s.Sound patches tree group) :
    ∃ pass, chunkPass packetSize (patchDepth patches) s = some pass ∧
      Passed patches tree group s.made 0 s.finalChunks s.heap pass :=
  buildPackets_spec hpatches _ hs.heap hs.nodes hs.uniform

/-- A split keeps the state of the loop sound. -/
theorem Splits.spec (hpatches : PatchesOf patches tree) {s s' : ChunkState} {left right : List ℕ}
    (hs : s.Sound patches tree group)
    (hsplits : Splits packetSize (patchDepth patches) s left right s') :
    SplitSpec patches s left right s' ∧ s'.Sound patches tree group := by
  obtain ⟨pass, splitIndex, hpass, hindex, hhalves, rfl⟩ := hsplits
  obtain ⟨pass', hpass', hpassed⟩ := chunkPass_spec packetSize hpatches hs
  obtain rfl := Option.some.inj (hpass.symm.trans hpass')
  rcases hpassed.outcome with ⟨hnone, -⟩ | ⟨k, is, hsome, hk, hlength, hmet⟩
  · rw [hnone] at hindex
    nomatch hindex
  · obtain rfl : splitIndex = k := by
      rw [hsome, Nat.zero_add] at hindex
      exact (Option.some.inj hindex).symm
    have hget : s.finalChunks.getD splitIndex [] = is := by
      rw [List.getD_eq_getElem?_getD, hk, Option.getD_some]
    rw [hget] at hhalves
    obtain ⟨happend, hleft, hright⟩ := halves_spec is hlength
    rw [hhalves] at happend hleft hright
    subst happend
    obtain ⟨hlt, hget'⟩ := List.getElem?_eq_some_iff.1 hk
    have hchunks : s.finalChunks = s.finalChunks.take splitIndex ++
        (left ++ right) :: s.finalChunks.drop (splitIndex + 1) := by
      rw [← hget', ← List.drop_eq_getElem_cons hlt, List.take_append_drop]
    have hnext : (s.next pass splitIndex).finalChunks = s.finalChunks.take splitIndex ++
        left :: right :: s.finalChunks.drop (splitIndex + 1) := by
      rw [ChunkState.next, splitChunk, hget, hhalves]
      simp
    have hmem : ∀ is ∈ (s.next pass splitIndex).finalChunks,
        is = left ∨ is = right ∨ is ∈ s.finalChunks := by
      intro is his
      rw [hnext] at his
      rw [hchunks]
      simp only [List.mem_append, List.mem_cons] at his ⊢
      tauto
    have hwhole : left ++ right ∈ s.finalChunks := List.mem_of_getElem? hk
    refine ⟨⟨⟨_, _, hchunks, hnext⟩, hmet, hpassed.later.kept⟩,
      hpassed.sound, hpassed.nodes, fun is his => ?_, ?_, fun is his => ?_⟩
    · rcases hmem is his with rfl | rfl | his
      · exact (hs.uniform _ hwhole).sublist (List.subset_append_left _ _)
      · exact (hs.uniform _ hwhole).sublist (List.subset_append_right _ _)
      · exact hs.uniform is his
    · rw [hnext, ← hs.flatten]
      conv_rhs => rw [hchunks]
      simp
    · rcases hmem is his with rfl | rfl | his
      · exact hleft
      · exact hright
      · exact hs.nonempty is his

end Passes

end EdgeLink
