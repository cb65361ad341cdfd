import EdgeLink.Codec.Delta
import EdgeLink.Foundations.Lists
import EdgeLink.Foundations.MapAccum
import EdgeLink.Foundations.OrderedMap

/-!
# Same-as-last value deduplication

The codec of `codec/value-dedup.ts`: the client replaces a value that equals the last one it sent
for the same (context, path) by a sentinel, the server keeps a cache of its own and puts the value
back. Both caches are bounded and evict the least recently written key.

* `dedupValue_cases`: a value is sent as it is, or as the sentinel.
* `undedupValue_sentinel`, `undedupValue_absolute`: what the server makes of either.
* `lookup_write_of_ne`: writing a key leaves another one alone, or evicts it.
-/

namespace EdgeLink

open JsValue

/-- Max (context, path) entries in a dedup cache. -/
def VALUE_DEDUP_CACHE_MAX : ℕ := 10000

/-- The object that replaces an unchanged value on the wire. -/
def DUP_SENTINEL : JsValue := .obj [("$$", .str "dup")]

/-- The last value sent or received, by (context, path). -/
structure ValueDedupState where
  cache : OrderedMap String JsValue

def createValueDedupState : ValueDedupState := ⟨.empty⟩

/-- The cache key of a (context, path). -/
def cacheKey (context : Option String) (path : String) : String :=
  (if context.getD "" = "" then "*" else context.getD "") ++ "\x00" ++ path

/-- Insert or refresh an entry, evicting the least recently written key of a full cache. -/
def cacheSet (cache : OrderedMap String JsValue) (key : String) (value : JsValue) :
    OrderedMap String JsValue :=
  let cache :=
    if cache.has key then cache.delete key
    else if VALUE_DEDUP_CACHE_MAX ≤ cache.size then
      match cache.keys.head? with
      | some oldest => cache.delete oldest
      | none => cache
    else cache
  cache.set key value

/-- Whether a value is the sentinel object. -/
def isSentinel : JsValue → Bool
  | .obj fields => fields.lookup "$$" == some (.str "dup") && fields.length == 1
  | _ => false

namespace ValueDedupState

/-- The cached value, `undefined` when there is none. -/
def lookup (state : ValueDedupState) (key : String) : JsValue :=
  (state.cache.get? key).getD .undefined

def write (state : ValueDedupState) (key : String) (value : JsValue) : ValueDedupState :=
  ⟨cacheSet state.cache key value⟩

end ValueDedupState

/-! ## Outbound -/

/-- Replace a value that equals the cached one by the sentinel. -/
def dedupValue (context : Option String) (state : ValueDedupState) (v : DeltaValue) :
    ValueDedupState × DeltaValue :=
  if v.path = "" then (state, v)
  else
    let key := cacheKey context v.path
    let cached := state.lookup key
    let cachedRepr := if cached = .undefined then none else some (stableRepr cached)
    if cachedRepr = some (stableRepr v.value) then
      (state.write key cached, { v with value := DUP_SENTINEL })
    else (state.write key v.value, v)

def dedupUpdate (context : Option String) (state : ValueDedupState) (update : DeltaUpdate) :
    ValueDedupState × DeltaUpdate :=
  let r := mapAccum (dedupValue context) state update.values
  (r.1, { update with values := r.2 })

def dedupDelta (state : ValueDedupState) (delta : Delta) : ValueDedupState × Delta :=
  let r := mapAccum (dedupUpdate delta.context) state delta.updates
  (r.1, { delta with updates := r.2 })

/-- The encoder of a batch. -/
def dedupDeltaArray (state : ValueDedupState) (deltas : List Delta) :
    ValueDedupState × List Delta :=
  mapAccum dedupDelta state deltas

/-! ## Inbound -/

/-- Put the cached value back for a sentinel; a sentinel without a cached value is dropped. -/
def undedupValue (context : Option String) (state : ValueDedupState) (v : DeltaValue) :
    ValueDedupState × Option DeltaValue :=
  if v.path = "" then (state, some v)
  else
    let key := cacheKey context v.path
    if isSentinel v.value then
      let cached := state.lookup key
      if cached = .undefined then (state, none)
      else (state.write key cached, some { v with value := cached })
    else (state.write key v.value, some v)

def undedupUpdate (context : Option String) (state : ValueDedupState) (update : DeltaUpdate) :
    ValueDedupState × DeltaUpdate :=
  let r := mapAccum (undedupValue context) state update.values
  (r.1, { update with values := r.2.reduceOption })

def undedupDelta (state : ValueDedupState) (delta : Delta) : ValueDedupState × Delta :=
  let r := mapAccum (undedupUpdate delta.context) state delta.updates
  (r.1, { delta with updates := r.2 })

/-- The decoder of a batch. -/
def undedupDeltaArray (state : ValueDedupState) (deltas : List Delta) :
    ValueDedupState × List Delta :=
  mapAccum undedupDelta state deltas

/-! ## What arrives of a delta -/

def DeltaValue.wire (useMsgpack : Bool) (v : DeltaValue) : DeltaValue :=
  { v with value := v.value.wire useMsgpack }

def DeltaUpdate.wire (useMsgpack : Bool) (update : DeltaUpdate) : DeltaUpdate :=
  { update with values := update.values.map (·.wire useMsgpack) }

def Delta.wire (useMsgpack : Bool) (delta : Delta) : Delta :=
  { delta with updates := delta.updates.map (·.wire useMsgpack) }

def Leaf.wire (useMsgpack : Bool) (l : Leaf) : Leaf :=
  { l with value := l.value.wire useMsgpack }

theorem leaves_wireUpdate (m : Bool) (context : Option String) (u : DeltaUpdate) :
    (u.wire m).leaves context = (u.leaves context).map (·.wire m) := by
  simp [DeltaUpdate.leaves, DeltaUpdate.wire, DeltaValue.wire, Leaf.wire, Function.comp_def]

theorem leaves_wire (m : Bool) (d : Delta) : (d.wire m).leaves = d.leaves.map (·.wire m) := by
  simp only [Delta.leaves, Delta.wire, List.flatMap_map, List.map_flatMap, leaves_wireUpdate]

/-! ## The cache -/

section Cache

variable {state : ValueDedupState} {key k : String} {v : JsValue}

theorem lookup_write_self (state : ValueDedupState) (key : String) (v : JsValue) :
    (state.write key v).lookup key = v := by
  simp [ValueDedupState.lookup, ValueDedupState.write, cacheSet]

/-- Writing a key leaves another one alone, or evicts it. -/
theorem lookup_write_of_ne (state : ValueDedupState) (h : k ≠ key) (v : JsValue) :
    (state.write key v).lookup k = state.lookup k ∨ (state.write key v).lookup k = .undefined := by
  simp only [ValueDedupState.lookup, ValueDedupState.write, cacheSet, OrderedMap.get?_set_of_ne _ h]
  split_ifs with h1 h2
  · exact Or.inl (by rw [OrderedMap.get?_delete, if_neg h])
  · split
    next oldest ho =>
      rw [OrderedMap.get?_delete]
      split_ifs
      · exact Or.inr rfl
      · exact Or.inl rfl
    next => exact Or.inl rfl
  · exact Or.inl rfl

/-- Refreshing a key with the value it has changes no lookup. -/
theorem lookup_refresh (h : state.lookup key ≠ .undefined) (k : String) :
    (state.write key (state.lookup key)).lookup k = state.lookup k := by
  by_cases hk : k = key
  · subst hk
    exact lookup_write_self _ _ _
  · have hhas : state.cache.has key = true := by
      by_contra hn
      rw [OrderedMap.has_iff, ← OrderedMap.get?_eq_none] at hn
      exact h (by rw [ValueDedupState.lookup, hn]; rfl)
    simp only [ValueDedupState.lookup, ValueDedupState.write, cacheSet, hhas, if_true,
      OrderedMap.get?_set_of_ne _ hk, OrderedMap.get?_delete, if_neg hk]

theorem isSentinel_iff {v : JsValue} : isSentinel v = true ↔ v = DUP_SENTINEL := by
  cases v with
  | obj fields =>
    match fields with
    | [] => simp [isSentinel, DUP_SENTINEL]
    | [(k, w)] =>
      by_cases hk : "$$" = k
      · subst hk
        simp [isSentinel, DUP_SENTINEL]
      · simp [isSentinel, DUP_SENTINEL, List.lookup_cons, beq_false_of_ne hk, Ne.symm hk]
    | _ :: _ :: _ => simp [isSentinel, DUP_SENTINEL]
  | _ => simp [isSentinel, DUP_SENTINEL]

end Cache

/-! ## One value -/

section Value

variable {context : Option String} {state : ValueDedupState} {v : DeltaValue}

theorem dedupValue_noPath (hp : v.path = "") : dedupValue context state v = (state, v) := if_pos hp

theorem undedupValue_noPath (hp : v.path = "") : undedupValue context state v = (state, some v) :=
  if_pos hp

/-- A value that the encoder takes for the cached one is sent as the sentinel. -/
theorem dedupValue_repeated (hp : v.path ≠ "")
    (hcached : state.lookup (cacheKey context v.path) ≠ .undefined)
    (hrepr : stableRepr (state.lookup (cacheKey context v.path)) = stableRepr v.value) :
    dedupValue context state v =
      (state.write (cacheKey context v.path) (state.lookup (cacheKey context v.path)),
        { v with value := DUP_SENTINEL }) := by
  rw [dedupValue, if_neg hp]
  dsimp only
  rw [if_neg hcached, hrepr, if_pos rfl]

/-- A new or changed value is sent as it is. -/
theorem dedupValue_changed (hp : v.path ≠ "")
    (h : ¬ (state.lookup (cacheKey context v.path) ≠ .undefined ∧
      stableRepr (state.lookup (cacheKey context v.path)) = stableRepr v.value)) :
    dedupValue context state v = (state.write (cacheKey context v.path) v.value, v) := by
  rw [dedupValue, if_neg hp]
  refine if_neg fun hrepr => h ?_
  split_ifs at hrepr with hcached
  exact ⟨hcached, Option.some.inj hrepr⟩

theorem wire_sentinel (m : Bool) : DUP_SENTINEL.wire m = DUP_SENTINEL := by
  cases m <;> rfl

/-- A sentinel that arrives is expanded, or dropped. -/
theorem undedupValue_sentinel (m : Bool) (hp : v.path ≠ "") :
    undedupValue context state (DeltaValue.wire m { v with value := DUP_SENTINEL }) =
      if state.lookup (cacheKey context v.path) = .undefined then (state, none)
      else (state.write (cacheKey context v.path) (state.lookup (cacheKey context v.path)),
        some { v with value := state.lookup (cacheKey context v.path) }) :=
  (if_neg hp).trans (if_pos (isSentinel_iff.2 (wire_sentinel m)))

/-- Another value that arrives is cached. -/
theorem undedupValue_absolute {m : Bool} (hp : v.path ≠ "") (hs : v.value.wire m ≠ DUP_SENTINEL) :
    undedupValue context state (v.wire m) =
      (state.write (cacheKey context v.path) (v.value.wire m), some (v.wire m)) :=
  (if_neg hp).trans (if_neg fun hsent => hs (isSentinel_iff.1 hsent))

theorem path_dedupValue (context : Option String) (state : ValueDedupState) (v : DeltaValue) :
    (dedupValue context state v).2.path = v.path := by
  unfold dedupValue
  dsimp only
  split_ifs <;> rfl

/-- A value is encoded as it is, or as the sentinel. -/
theorem dedupValue_cases (context : Option String) (state : ValueDedupState) (v : DeltaValue) :
    (dedupValue context state v).2 = v ∨
      (dedupValue context state v).2 = { v with value := DUP_SENTINEL } := by
  unfold dedupValue
  dsimp only
  split_ifs
  case pos => exact Or.inl rfl
  all_goals first | exact Or.inl rfl | exact Or.inr rfl

/-- What arrives as a sentinel, arrives as the encoder's does. -/
theorem wire_of_isSentinel {m : Bool}
    (hs : isSentinel ((dedupValue context state v).2.value.wire m) = true) :
    (dedupValue context state v).2.wire m = DeltaValue.wire m { v with value := DUP_SENTINEL } := by
  rw [DeltaValue.wire, DeltaValue.wire, path_dedupValue, isSentinel_iff.1 hs, wire_sentinel]

/-- What does not, is the value itself. -/
theorem dedupValue_of_not_isSentinel {m : Bool}
    (hs : ¬ isSentinel ((dedupValue context state v).2.value.wire m) = true) :
    (dedupValue context state v).2 = v ∧ v.value.wire m ≠ DUP_SENTINEL := by
  have hself : (dedupValue context state v).2 = v := by
    refine (dedupValue_cases context state v).resolve_right fun he => hs ?_
    rw [he, isSentinel_iff]
    exact wire_sentinel m
  rw [hself] at hs
  exact ⟨hself, fun he => hs (isSentinel_iff.2 he)⟩

/-- Where values are dropped or arrive as they are, what arrives is in the order of what was sent. -/
theorem reduceOption_sublist {m : Bool} {vs : List DeltaValue} {os : List (Option DeltaValue)}
    (h : List.Forall₂ (fun v o => o = none ∨ o = some (v.wire m)) vs os) :
    os.reduceOption.Sublist (vs.map (·.wire m)) := by
  induction h with
  | nil => exact List.Sublist.refl _
  | cons hv _ ih =>
    rcases hv with rfl | rfl
    · exact ih.cons _
    · exact ih.cons_cons _

end Value

end EdgeLink
