import EdgeLink.Codec.JsTree
import EdgeLink.Foundations.Enumeration
import EdgeLink.Foundations.ObjectHeap

/-!
# Chunks of a sources tree

`transport/pipeline/reliable-client/source-snapshot.ts`: a sources tree is flattened into patches,
one for each of its leaves, the patches are packed into chunks, and a chunk whose packet is over
the safe size is split in half until all packets fit.

A patch is a nest of objects, and `mergeSourcePatch` puts references to them into the chunk it
builds. They are objects of a heap here, and the lists of patches are lists of references. An object
is named after where it was made.

* `mergeSourcePatch`, `buildSourceChunk`: merging by reference.
* `buildPackets`: one pass over the chunks, up to the first that has to be split.
* `chunkSourceSnapshot`: passes until there is none. What is returned is read from the last heap.
-/

namespace EdgeLink

open JsValue

def MAX_SAFE_UDP_PAYLOAD : ℕ := 1400

def SOURCE_SNAPSHOT_COMPRESSION_BUDGET_FACTOR : ℕ := 4

mutual

/-- No object has a key `__proto__`. -/
def withoutProto : JsValue → Bool
  | .obj fields => withoutProtoFields fields
  | _ => true

def withoutProtoFields : List (String × JsValue) → Bool
  | [] => true
  | (key, v) :: rest => key ≠ "__proto__" && withoutProto v && withoutProtoFields rest

end

/-- The object that is sent. -/
structure SourceTree where
  fields : List (String × JsValue)
  keyed : (JsValue.obj fields).wellKeyed = true
  plain : withoutProto (.obj fields) = true

/-! ## Patches -/

/-- What `buildSourcePatch` is called with. -/
structure SourcePatch where
  path : List String
  value : JsValue
  deriving DecidableEq

mutual

def flattenSourcePatches (path : List String) : JsValue → List SourcePatch
  | .obj entries =>
    if path ≠ [] ∧ entries.isEmpty then [⟨path, .obj []⟩] else flattenEntries path entries
  | value => if path ≠ [] then [⟨path, value⟩] else []

def flattenEntries (path : List String) : List (String × JsValue) → List SourcePatch
  | [] => []
  | (key, entry) :: rest => flattenSourcePatches (path ++ [key]) entry ++ flattenEntries path rest

end

/-- The patch as it is when it has been built. -/
def SourcePatch.tree (p : SourcePatch) : JsValue :=
  p.path.foldr (fun key patch => .obj [(key, patch)]) p.value

/-! ## Shared objects -/

/-- The object at a depth of a patch, or the `made`-th chunk that is built. -/
inductive Address where
  | node (patch depth : ℕ)
  | chunk (made : ℕ)
  deriving DecidableEq

abbrev SourceHeap := ObjectHeap Address String JsValue

/-- What is at a depth of the `i`-th patch: an object up to the end of the path, and there the
value. An empty object is an object of its own. -/
def SourcePatch.cell (p : SourcePatch) (i depth : ℕ) : Cell Address JsValue :=
  if depth < p.path.length then .object (.node i depth)
  else match p.value with
    | .obj _ => .object (.node i depth)
    | value => .value value

/-- The heap in which every patch has been built. -/
def buildSourcePatches (patches : List SourcePatch) : SourceHeap
  | .node i depth =>
    match patches[i]? with
    | some p => (p.path[depth]?).elim [] fun key => [(key, p.cell i (depth + 1))]
    | none => []
  | .chunk _ => []

/-- One round of the loop of `mergeSourcePatch`. Of what an object inherits only `__proto__` is an
object, so that own properties are all there is to be read. -/
def mergeSourceEntry (merge : SourceHeap → Address → Address → Option SourceHeap)
    (target : Address) (h : SourceHeap) (e : String × Cell Address JsValue) : Option SourceHeap :=
  -- a prototype is no object of the heap
  if e.1 = "__proto__" then none
  else match (h target).lookup e.1, e.2 with
    | some (.object current), .object value => merge h current value
    | _, value => some (h.write target e.1 value)

/-- Merging an object into another one, to a depth. -/
def mergeSourcePatch : ℕ → SourceHeap → Address → Address → Option SourceHeap
  | 0, _, _, _ => none
  | fuel + 1, h, target, patch =>
    (h patch).foldlM (mergeSourceEntry (mergeSourcePatch fuel) target) h

def readHeapEntry (read : Address → Option JsValue) :
    String × Cell Address JsValue → Option (String × JsValue)
  | (key, .value v) => some (key, v)
  | (key, .object a) => (read a).map (key, ·)

/-- The tree of an object, to a depth. -/
def readObject (h : SourceHeap) : ℕ → Address → Option JsValue
  | 0, _ => none
  | fuel + 1, a => ((h a).mapM (readHeapEntry (readObject h fuel))).map .obj

/-- The chunk of some patches: a new object into which they are merged. -/
def buildSourceChunk (fuel : ℕ) (h : SourceHeap) (made : ℕ) (patches : List ℕ) :
    Option SourceHeap :=
  patches.foldlM (fun h i => mergeSourcePatch fuel h (.chunk made) (.node i 0))
    (Function.update h (.chunk made) [])

/-! ## Packing -/

/-- The variables of `packPatchesIntoChunks`. -/
structure Packing where
  chunks : List (List ℕ)
  currentPatches : List ℕ
  runningSize : ℕ

def packPatch (patchSize : ℕ → ℕ) (s : Packing) (patch : ℕ) : Packing :=
  if s.currentPatches ≠ [] ∧
      MAX_SAFE_UDP_PAYLOAD * SOURCE_SNAPSHOT_COMPRESSION_BUDGET_FACTOR <
        s.runningSize + patchSize patch then
    ⟨s.chunks ++ [s.currentPatches], [patch], patchSize patch⟩
  else ⟨s.chunks, s.currentPatches ++ [patch], s.runningSize + patchSize patch⟩

def packPatchesIntoChunks (patchSize : ℕ → ℕ) (sourcePatches : List ℕ) : List (List ℕ) :=
  let s := sourcePatches.foldl (packPatch patchSize) ⟨[], [], 0⟩
  if s.currentPatches ≠ [] then s.chunks ++ [s.currentPatches] else s.chunks

/-! ## Passes -/

/-- A chunk with its packet: the object, and how long the packet is. -/
structure BuiltChunk where
  sources : Address
  packetLength : ℕ

/-- What a pass over the chunks leaves behind. -/
structure ChunkPass where
  heap : SourceHeap
  packets : List BuiltChunk
  splitIndex : Option ℕ

/-- The variables of the outer loop, and how many chunks have been built. -/
structure ChunkState where
  heap : SourceHeap
  made : ℕ
  finalChunks : List (List ℕ)

section Loop

variable (packetSize : JsValue → ℕ → ℕ → ℕ) (fuel : ℕ)

/-- The inner loop, from the `i`-th of `total` chunks. -/
def buildPackets (total : ℕ) : SourceHeap → ℕ → ℕ → List (List ℕ) → Option ChunkPass
  | h, _, _, [] => some ⟨h, [], none⟩
  | h, made, i, patchChunk :: rest => do
    let h ← buildSourceChunk fuel h made patchChunk
    let sourceChunk ← readObject h fuel (.chunk made)
    let packet : BuiltChunk := ⟨.chunk made, packetSize sourceChunk i total⟩
    if MAX_SAFE_UDP_PAYLOAD < packet.packetLength ∧ 1 < patchChunk.length then
      some ⟨h, [packet], some i⟩
    else
      let pass ← buildPackets total h (made + 1) (i + 1) rest
      some { pass with packets := packet :: pass.packets }

/-- The first half of a chunk that is split, and the second. -/
def halves (patchesToSplit : List ℕ) : List ℕ × List ℕ :=
  patchesToSplit.splitAt ((patchesToSplit.length + 1) / 2)

def splitChunk (finalChunks : List (List ℕ)) (splitIndex : ℕ) : List (List ℕ) :=
  let (left, right) := halves (finalChunks.getD splitIndex [])
  finalChunks.take splitIndex ++ [left, right] ++ finalChunks.drop (splitIndex + 1)

def chunkPass (s : ChunkState) : Option ChunkPass :=
  buildPackets packetSize fuel s.finalChunks.length s.heap s.made 0 s.finalChunks

/-- The state after a pass that found a chunk to split. -/
def ChunkState.next (s : ChunkState) (pass : ChunkPass) (splitIndex : ℕ) : ChunkState :=
  ⟨pass.heap, s.made + pass.packets.length, splitChunk s.finalChunks splitIndex⟩

/-- The outer loop, for a number of rounds. -/
def splitLoop : ℕ → ChunkState → Option ChunkPass
  | 0, _ => none
  | rounds + 1, s =>
    (chunkPass packetSize fuel s).bind fun pass =>
      match pass.splitIndex with
      | none => some pass
      | some splitIndex => splitLoop rounds (s.next pass splitIndex)

end Loop

/-- A chunk as the caller sees it. -/
structure SourceChunk where
  sources : JsValue
  packetLength : ℕ
  deriving DecidableEq

/-- The longest path, and a step for the object at its end. -/
def patchDepth (patches : List SourcePatch) : ℕ :=
  (patches.map fun p => p.path.length).foldr max 0 + 1

/-- The state in which the outer loop is entered. -/
def firstState (patchSize : JsValue → ℕ) (sources : JsValue) : ChunkState :=
  let patches := flattenSourcePatches [] sources
  ⟨buildSourcePatches patches, 0, packPatchesIntoChunks
    (fun i => (patches[i]?).elim 0 fun p => patchSize p.tree) (List.range patches.length)⟩

def chunkSourceSnapshot (patchSize : JsValue → ℕ) (packetSize : JsValue → ℕ → ℕ → ℕ)
    (sources : JsValue) : Option (List SourceChunk) :=
  let patches := flattenSourcePatches [] sources
  (splitLoop packetSize (patchDepth patches) (patches.length + 1)
      (firstState patchSize sources)).bind fun pass =>
    pass.packets.mapM fun packet =>
      (readObject pass.heap (patchDepth patches) packet.sources).map (⟨·, packet.packetLength⟩)

/-! ## The patches of a tree -/

theorem flattenEntries_eq (path : List String) (entries : List (String × JsValue)) :
    flattenEntries path entries =
      entries.flatMap fun e => flattenSourcePatches (path ++ [e.1]) e.2 := by
  induction entries with
  | nil => rfl
  | cons e entries ih => rw [flattenEntries, ih, List.flatMap_cons]

/-- The patches of the entries of an object, where those of every value below are known. -/
theorem enumerates_entries {entries : List (String × JsValue)}
    (hkeys : (entries.map Prod.fst).Nodup) (path : List String)
    (h : ∀ e ∈ entries, Enumerates (fun p => (leafValueAt p e.2).map (⟨path ++ [e.1] ++ p, ·⟩))
      (flattenSourcePatches (path ++ [e.1]) e.2)) :
    Enumerates (fun p => if p = [] then none
      else (leafValueAt p (.obj entries)).map (SourcePatch.mk (path ++ p)))
      (flattenEntries path entries) := by
  rw [flattenEntries_eq]
  refine (Enumerates.lookup
    (fun key v p => (leafValueAt p v).map (SourcePatch.mk (path ++ [key] ++ p)))
    (fun key v => flattenSourcePatches (path ++ [key]) v) hkeys h).embed
      (e := fun q => q.1 :: q.2) ?_ ?_ ?_
  · rintro ⟨key, p⟩ ⟨key', p'⟩ heq
    simpa using heq
  · rintro ⟨key, p⟩
    cases hlookup : entries.lookup key <;> simp [leafValueAt, hlookup]
  · intro p hp
    cases p with
    | nil => rfl
    | cons key p => exact absurd rfl (hp (key, p))

mutual

theorem enumerates_flattenSourcePatches : ∀ {v : JsValue}, v.wellKeyed = true →
    ∀ {path : List String}, path ≠ [] →
      Enumerates (fun p => (leafValueAt p v).map (⟨path ++ p, ·⟩)) (flattenSourcePatches path v)
  | .obj [] => fun _ {path} hpath => by
    rw [flattenSourcePatches, if_pos ⟨hpath, rfl⟩]
    refine .single (p := []) (by simp [leafValueAt]) fun p hp => ?_
    cases p with
    | nil => exact absurd rfl hp
    | cons key p => rfl
  | .obj (e :: rest) => fun h {path} hpath => by
    obtain ⟨hkeys, hbelow⟩ := wellKeyed_obj.1 h
    rw [flattenSourcePatches, if_neg (by simp)]
    refine (enumerates_entries hkeys path fun e he =>
      enumerates_flattenEntries hbelow e he (by simp)).embed (e := id) Function.injective_id ?_ ?_
    · intro p
      cases p <;> rfl
    · intro p hp
      exact absurd rfl (hp p)
  | .undefined | .null | .bool _ | .num _ | .str _ | .arr _ => fun _ {path} hpath => by
    rw [flattenSourcePatches, if_pos hpath]
    · refine .single (p := []) (by simp [leafValueAt]) fun p hp => ?_
      cases p with
      | nil => exact absurd rfl hp
      | cons key p => rfl
    · simp

theorem enumerates_flattenEntries : ∀ {entries : List (String × JsValue)},
    (∀ e ∈ entries, e.2.wellKeyed = true) → ∀ e ∈ entries, ∀ {path : List String}, path ≠ [] →
      Enumerates (fun p => (leafValueAt p e.2).map (⟨path ++ p, ·⟩))
        (flattenSourcePatches path e.2)
  | [] => fun _ _ he => nomatch he
  | e :: _ => fun h => List.forall_mem_cons.2
    ⟨enumerates_flattenSourcePatches (h e List.mem_cons_self),
      enumerates_flattenEntries fun e he => h e (List.mem_cons_of_mem _ he)⟩

end

/-- **Flattening.** There is one patch for every leaf of a tree. -/
theorem enumerates_patches {fields : List (String × JsValue)}
    (h : (JsValue.obj fields).wellKeyed = true) :
    Enumerates (fun p => if p = [] then none
      else (leafValueAt p (.obj fields)).map (SourcePatch.mk p))
      (flattenSourcePatches [] (.obj fields)) := by
  obtain ⟨hkeys, hbelow⟩ := wellKeyed_obj.1 h
  rw [flattenSourcePatches, if_neg (by simp)]
  exact enumerates_entries hkeys [] fun e he => enumerates_flattenEntries hbelow e he (by simp)

section Patches

variable {fields : List (String × JsValue)}

theorem mem_patches_iff (h : (JsValue.obj fields).wellKeyed = true) {p : SourcePatch} :
    p ∈ flattenSourcePatches [] (.obj fields) ↔
      p.path ≠ [] ∧ leafValueAt p.path (.obj fields) = some p.value := by
  rw [(enumerates_patches h).mem_iff]
  constructor
  · rintro ⟨path, hp⟩
    split_ifs at hp with hpath
    obtain ⟨v, hv, rfl⟩ := Option.map_eq_some_iff.1 hp
    exact ⟨hpath, hv⟩
  · rintro ⟨hpath, hv⟩
    exact ⟨p.path, by simp [hpath, hv]⟩

theorem nodup_paths (h : (JsValue.obj fields).wellKeyed = true) :
    ((flattenSourcePatches [] (.obj fields)).map SourcePatch.path).Nodup := by
  refine (enumerates_patches h).nodup_map fun path path' p p' hp hp' heq => ?_
  split_ifs at hp hp' with hpath hpath'
  obtain ⟨v, -, rfl⟩ := Option.map_eq_some_iff.1 hp
  obtain ⟨v', -, rfl⟩ := Option.map_eq_some_iff.1 hp'
  exact heq

end Patches

/-! ## The first chunks -/

/-- What has been packed, in order, and no chunk that has been closed is empty. -/
structure Packing.Holds (s : Packing) (packed : List ℕ) : Prop where
  flatten : s.chunks.flatten ++ s.currentPatches = packed
  chunks : ∀ chunk ∈ s.chunks, chunk ≠ []

theorem Packing.Holds.packPatch {patchSize : ℕ → ℕ} {s : Packing} {packed : List ℕ}
    (h : s.Holds packed) (patch : ℕ) :
    (EdgeLink.packPatch patchSize s patch).Holds (packed ++ [patch]) := by
  rw [EdgeLink.packPatch]
  split_ifs with hfull
  · refine ⟨by simp [← h.flatten], fun chunk hchunk => ?_⟩
    rcases List.mem_append.1 hchunk with hchunk | hchunk
    · exact h.chunks chunk hchunk
    · rw [List.mem_singleton.1 hchunk]
      exact hfull.1
  · exact ⟨by simp [← h.flatten], h.chunks⟩

/-- Packing keeps the patches in order, and makes no empty chunk. -/
theorem packPatchesIntoChunks_spec (patchSize : ℕ → ℕ) (patches : List ℕ) :
    (packPatchesIntoChunks patchSize patches).flatten = patches ∧
      ∀ chunk ∈ packPatchesIntoChunks patchSize patches, chunk ≠ [] := by
  have hrun : ∀ (patches packed : List ℕ) (s : Packing), s.Holds packed →
      (patches.foldl (packPatch patchSize) s).Holds (packed ++ patches) := by
    intro patches
    induction patches with
    | nil => simp
    | cons patch patches ih =>
      intro packed s hs
      simpa using ih _ _ (hs.packPatch patch)
  have h := hrun patches [] ⟨[], [], 0⟩ ⟨rfl, by simp⟩
  rw [List.nil_append] at h
  rw [packPatchesIntoChunks]
  split_ifs with hcurrent
  · refine ⟨by simpa using h.flatten, fun chunk hchunk => ?_⟩
    rcases List.mem_append.1 hchunk with hchunk | hchunk
    · exact h.chunks chunk hchunk
    · rw [List.mem_singleton.1 hchunk]
      exact hcurrent
  · rw [not_not] at hcurrent
    exact ⟨by simpa [hcurrent] using h.flatten, h.chunks⟩

end EdgeLink
