import EdgeLink.Codec.ValueDedup

/-!
# What the value-dedup codec loses

An encoder and a decoder that start with empty caches and see every delta in its order.

* `LockStep`: the decoder's cache is the encoder's, entry by entry, with the values as they arrived.
  Both caches write, refresh and evict in step, whatever their number of keys.
* `Faithful`: a value that the encoder takes for the cached one arrives as the cached one does.
  Through JSON every value does; through MessagePack, every value that JSON can write, and every
  number (`faithful_of_plain`).
* `dedup_lossless_iff`: among the streams of such values the codec is lossless for exactly those
  that hold no value that arrives as the reserved sentinel object.
-/

namespace EdgeLink

open JsValue

/-! ## The values that can be told apart -/

section

variable (m : Bool)

/-- If the encoder takes a value for the cached one, the two arrive as the same value. -/
def FaithfulValue (context : Option String) (client : ValueDedupState) (v : DeltaValue) : Prop :=
  v.path ≠ "" → client.lookup (cacheKey context v.path) ≠ .undefined →
    stableRepr (client.lookup (cacheKey context v.path)) = stableRepr v.value →
    (client.lookup (cacheKey context v.path)).wire m = v.value.wire m

instance (context : Option String) (client : ValueDedupState) (v : DeltaValue) :
    Decidable (FaithfulValue m context client v) :=
  inferInstanceAs (Decidable (_ → _ → _ → _))

def FaithfulUpdate (context : Option String) (client : ValueDedupState) (update : DeltaUpdate) :
    Prop :=
  Along (fun s v => (dedupValue context s v).1) (FaithfulValue m context) client update.values

instance (context : Option String) (client : ValueDedupState) (update : DeltaUpdate) :
    Decidable (FaithfulUpdate m context client update) := inferInstanceAs (Decidable (Along ..))

def FaithfulDelta (client : ValueDedupState) (delta : Delta) : Prop :=
  Along (fun s u => (dedupUpdate delta.context s u).1) (FaithfulUpdate m delta.context) client
    delta.updates

instance (client : ValueDedupState) (delta : Delta) : Decidable (FaithfulDelta m client delta) :=
  inferInstanceAs (Decidable (Along ..))

/-- Every value of a stream that the encoder takes for the cached one arrives as that. -/
def Faithful (client : ValueDedupState) (deltas : List Delta) : Prop :=
  Along (fun s d => (dedupDelta s d).1) (FaithfulDelta m) client deltas

instance (client : ValueDedupState) (deltas : List Delta) :
    Decidable (Faithful m client deltas) := inferInstanceAs (Decidable (Along ..))

/-- What a decoder makes of a stream that an encoder has sent, both with empty caches. -/
def carriedOver (deltas : List Delta) : List Delta :=
  (undedupDeltaArray createValueDedupState
    ((dedupDeltaArray createValueDedupState deltas).2.map (·.wire m))).2

/-- A value does not arrive as the reserved object. An entry without a path is not the codec's. -/
def Unreserved (v : DeltaValue) : Prop := v.path ≠ "" → v.value.wire m ≠ DUP_SENTINEL

instance (v : DeltaValue) : Decidable (Unreserved m v) := inferInstanceAs (Decidable (_ → _))

/-! ## The lock step -/

/-- The decoder's cache is the encoder's with the values as they arrived, and none of them is the
reserved object. -/
structure LockStep (client server : ValueDedupState) : Prop where
  cache : server.cache = client.cache.mapVal fun _ v => v.wire m
  unreserved : ∀ key, (client.lookup key).wire m ≠ DUP_SENTINEL

end

variable {m : Bool} {client server : ValueDedupState} {context : Option String}

theorem undefined_wire_ne (m : Bool) : JsValue.undefined.wire m ≠ DUP_SENTINEL := by
  cases m <;> decide

/-- Only `undefined` can arrive as `undefined`. -/
theorem wire_ne_undefined {v : JsValue} (h : v ≠ .undefined) : v.wire m ≠ .undefined := by
  cases m with
  | true => cases v <;> simp_all [wire, packed]
  | false =>
    rw [wire, if_neg Bool.false_ne_true, if_neg h]
    cases v with
    | num n => cases n <;> simp [stringify]
    | _ => simp [stringify]

/-- Writing commutes with the transport. -/
theorem cacheSet_mapVal (cache : OrderedMap String JsValue) (f : JsValue → JsValue) (key : String)
    (v : JsValue) :
    cacheSet (cache.mapVal fun _ => f) key (f v) = (cacheSet cache key v).mapVal fun _ => f := by
  rw [cacheSet, cacheSet, ← OrderedMap.set_mapVal, OrderedMap.has_mapVal, OrderedMap.size_mapVal,
    OrderedMap.keys_mapVal]
  congr 1
  split_ifs
  · exact OrderedMap.delete_mapVal ..
  · cases cache.keys.head? with
    | none => rfl
    | some oldest => exact OrderedMap.delete_mapVal ..
  · rfl

namespace LockStep

theorem new : LockStep m createValueDedupState createValueDedupState where
  cache := rfl
  unreserved _ := undefined_wire_ne m

/-- What the decoder holds for a key that the encoder has a value for. -/
theorem lookup (h : LockStep m client server) {key : String}
    (hkey : client.lookup key ≠ .undefined) : server.lookup key = (client.lookup key).wire m := by
  rw [ValueDedupState.lookup, h.cache, OrderedMap.get?_mapVal]
  cases hget : client.cache.get? key with
  | none => exact absurd (by rw [ValueDedupState.lookup, hget]; rfl) hkey
  | some v => rw [ValueDedupState.lookup, hget]; rfl

/-- The decoder never holds the reserved object. -/
theorem lookup_ne (h : LockStep m client server) (key : String) :
    server.lookup key ≠ DUP_SENTINEL := by
  have hwire := h.unreserved key
  rw [ValueDedupState.lookup] at hwire
  rw [ValueDedupState.lookup, h.cache, OrderedMap.get?_mapVal]
  cases hget : client.cache.get? key with
  | none => rintro ⟨⟩
  | some v => rwa [hget] at hwire

theorem write (h : LockStep m client server) {key : String} {v : JsValue}
    (hv : v.wire m ≠ DUP_SENTINEL) :
    LockStep m (client.write key v) (server.write key (v.wire m)) where
  cache := by
    rw [ValueDedupState.write, h.cache]
    exact cacheSet_mapVal ..
  unreserved k := by
    by_cases hk : k = key
    · rw [hk, lookup_write_self]
      exact hv
    · rcases lookup_write_of_ne client hk v with hsame | hgone
      · rw [hsame]
        exact h.unreserved k
      · rw [hgone]
        exact undefined_wire_ne m

end LockStep

/-! ## What the decoder gives back -/

/-- **One value.** From caches in lock step the decoder gives a faithful value back exactly when it
is not reserved, and then the caches are in lock step again. -/
theorem LockStep.exact_value (h : LockStep m client server) {v : DeltaValue}
    (hv : FaithfulValue m context client v) :
    ((undedupValue context server ((dedupValue context client v).2.wire m)).2 = some (v.wire m) ↔
        Unreserved m v) ∧
      (Unreserved m v → LockStep m (dedupValue context client v).1
        (undedupValue context server ((dedupValue context client v).2.wire m)).1) := by
  by_cases hp : v.path = ""
  · rw [dedupValue_noPath hp, undedupValue_noPath (show (v.wire m).path = "" from hp)]
    exact ⟨iff_of_true rfl fun hne => absurd hp hne, fun _ => h⟩
  by_cases hdup : client.lookup (cacheKey context v.path) ≠ .undefined ∧
      stableRepr (client.lookup (cacheKey context v.path)) = stableRepr v.value
  · -- the sentinel stands for what the decoder holds
    obtain ⟨hcached, hrepr⟩ := hdup
    have hsame := hv hp hcached hrepr
    have hheld := h.lookup hcached
    have hsome : server.lookup (cacheKey context v.path) ≠ .undefined :=
      hheld ▸ wire_ne_undefined hcached
    have hfree : Unreserved m v := fun _ => hsame ▸ h.unreserved _
    rw [dedupValue_repeated hp hcached hrepr, undedupValue_sentinel m hp, if_neg hsome]
    refine ⟨iff_of_true ?_ hfree, fun _ => ?_⟩
    · rw [hheld, hsame]
      rfl
    · rw [hheld]
      exact h.write (h.unreserved _)
  · rw [dedupValue_changed hp hdup]
    by_cases hreserved : v.value.wire m = DUP_SENTINEL
    · -- the decoder takes the value for a sentinel
      have hnot : ¬ Unreserved m v := fun hfree => hfree hp hreserved
      have harrives : v.wire m = DeltaValue.wire m { v with value := DUP_SENTINEL } := by
        rw [DeltaValue.wire, DeltaValue.wire, hreserved, wire_sentinel]
      refine ⟨iff_of_false ?_ hnot, fun hfree => absurd hfree hnot⟩
      rw [harrives, undedupValue_sentinel m hp]
      split_ifs
      · simp
      · intro heq
        have hvalue := congrArg DeltaValue.value (Option.some.inj heq)
        exact h.lookup_ne _ (hvalue.trans (wire_sentinel m))
    · rw [undedupValue_absolute hp hreserved]
      exact ⟨iff_of_true rfl fun _ => hreserved, fun _ => h.write hreserved⟩

theorem LockStep.exact_update (h : LockStep m client server) {u : DeltaUpdate}
    (hu : FaithfulUpdate m context client u) :
    ((undedupUpdate context server ((dedupUpdate context client u).2.wire m)).2 = u.wire m ↔
        ∀ v ∈ u.values, Unreserved m v) ∧
      ((∀ v ∈ u.values, Unreserved m v) → LockStep m (dedupUpdate context client u).1
        (undedupUpdate context server ((dedupUpdate context client u).2.wire m)).1) := by
  obtain ⟨hexact, hnext⟩ := mapAccum_exact (f := dedupValue context) (g := undedupValue context)
    (ω := (·.wire m)) (fun _ _ _ h hv => h.exact_value hv) h hu
  refine ⟨?_, hnext⟩
  have hmap : u.values.map (fun v => some (v.wire m)) = (u.values.map (·.wire m)).map some := by
    rw [List.map_map]
    rfl
  rw [← hexact, hmap, ← reduceOption_eq_iff (by simp)]
  exact ⟨congrArg DeltaUpdate.values, congrArg fun values => { u with values := values }⟩

theorem LockStep.exact_delta (h : LockStep m client server) {d : Delta}
    (hd : FaithfulDelta m client d) :
    ((undedupDelta server ((dedupDelta client d).2.wire m)).2 = d.wire m ↔
        ∀ u ∈ d.updates, ∀ v ∈ u.values, Unreserved m v) ∧
      ((∀ u ∈ d.updates, ∀ v ∈ u.values, Unreserved m v) →
        LockStep m (dedupDelta client d).1
          (undedupDelta server ((dedupDelta client d).2.wire m)).1) := by
  obtain ⟨hexact, hnext⟩ := mapAccum_exact (f := dedupUpdate d.context)
    (g := undedupUpdate d.context) (ω := (·.wire m)) (fun _ _ _ h hu => h.exact_update hu) h hd
  refine ⟨?_, hnext⟩
  rw [← hexact]
  exact ⟨congrArg Delta.updates, congrArg fun updates => { d with updates := updates }⟩

/-! ## Which values are faithful -/

/-- Through JSON every value is faithful. -/
theorem faithful_json (client : ValueDedupState) (deltas : List Delta) :
    Faithful false client deltas := by
  refine Along.of_forall (fun _ _ => ?_) client deltas
  refine Along.of_forall (fun _ _ => ?_) _ _
  exact Along.of_forall (fun _ _ _ _ hrepr => wire_json_of_stableRepr hrepr) _ _

mutual

/-- A value that JSON can write: without `undefined`, and its numbers are finite. -/
def isJson : JsValue → Bool
  | .undefined => false
  | .num (.finite _) => true
  | .num _ => false
  | .arr items => isJsonItems items
  | .obj fields => isJsonFields fields
  | _ => true

def isJsonItems : List JsValue → Bool
  | [] => true
  | v :: rest => isJson v && isJsonItems rest

def isJsonFields : List (String × JsValue) → Bool
  | [] => true
  | (_, v) :: rest => isJson v && isJsonFields rest

end

mutual

/-- JSON writes such a value as it is. -/
theorem stringify_of_isJson : ∀ v : JsValue, isJson v = true → stringify v = v
  | .undefined, h => by simp [isJson] at h
  | .null, _ => rfl
  | .bool _, _ => rfl
  | .num n, h => by
    cases n with
    | finite q => rfl
    | _ => simp [isJson] at h
  | .str _, _ => rfl
  | .arr items, h => by
    rw [stringify, stringifyItems_of_isJson items (by simpa [isJson] using h)]
  | .obj fields, h => by
    rw [stringify, stringifyFields_of_isJson fields (by simpa [isJson] using h)]

theorem stringifyItems_of_isJson :
    ∀ items : List JsValue, isJsonItems items = true → stringifyItems items = items
  | [], _ => rfl
  | v :: rest, h => by
    obtain ⟨hv, hrest⟩ : isJson v = true ∧ isJsonItems rest = true := by simpa [isJsonItems] using h
    rw [stringifyItems, stringify_of_isJson v hv, stringifyItems_of_isJson rest hrest]

theorem stringifyFields_of_isJson :
    ∀ fields : List (String × JsValue), isJsonFields fields = true →
      stringifyFields fields = fields
  | [], _ => rfl
  | (k, v) :: rest, h => by
    obtain ⟨hv, hrest⟩ : isJson v = true ∧ isJsonFields rest = true := by
      simpa [isJsonFields] using h
    have hdefined : v ≠ .undefined := by
      rintro rfl
      simp [isJson] at hv
    rw [stringifyFields, stringify_of_isJson v hv, stringifyFields_of_isJson rest hrest]
    exact hdefined

end

/-- A value that JSON can write, or any number, or none at all. -/
def Plain (v : JsValue) : Prop := isJson v = true ∨ v = .undefined ∨ ∃ n, v = .num n

/-- The comparison key tells plain values apart. -/
theorem eq_of_stableRepr {v w : JsValue} (hv : Plain v) (hw : Plain w)
    (h : stableRepr v = stableRepr w) : v = w := by
  have key : ∀ u : JsValue, Plain u → u = match stableRepr u with
      | .undefined => .undefined
      | .nan => .num .nan
      | .posInf => .num .posInf
      | .negInf => .num .negInf
      | .json text => text := by
    rintro u (hjson | rfl | ⟨n, rfl⟩)
    · have hsame := stringify_of_isJson u hjson
      cases u with
      | undefined => simp [isJson] at hjson
      | num n => cases n <;> simp [stableRepr, stringify]
      | _ => exact hsame.symm
    · rfl
    · cases n <;> simp [stableRepr, stringify]
  rw [key v hv, key w hw, h]

/-- A cache of plain values. -/
def HoldsPlain (client : ValueDedupState) : Prop := ∀ key, Plain (client.lookup key)

theorem HoldsPlain.write (h : HoldsPlain client) {v : JsValue} (hv : Plain v) (key : String) :
    HoldsPlain (client.write key v) := by
  intro k
  by_cases hk : k = key
  · rw [hk, lookup_write_self]
    exact hv
  · rcases lookup_write_of_ne client hk v with hsame | hgone
    · rw [hsame]
      exact h k
    · exact Or.inr (Or.inl hgone)

theorem HoldsPlain.faithful_value (h : HoldsPlain client) {v : DeltaValue} (hv : Plain v.value) :
    FaithfulValue m context client v ∧ HoldsPlain (dedupValue context client v).1 := by
  refine ⟨fun _ _ hrepr => by rw [eq_of_stableRepr (h _) hv hrepr], ?_⟩
  by_cases hp : v.path = ""
  · rwa [dedupValue_noPath hp]
  by_cases hdup : client.lookup (cacheKey context v.path) ≠ .undefined ∧
      stableRepr (client.lookup (cacheKey context v.path)) = stableRepr v.value
  · rw [dedupValue_repeated hp hdup.1 hdup.2]
    exact h.write (h _) _
  · rw [dedupValue_changed hp hdup]
    exact h.write hv _

/-- Plain values are faithful through either serialisation. -/
theorem faithful_of_plain (m : Bool) {deltas : List Delta}
    (h : ∀ d ∈ deltas, ∀ u ∈ d.updates, ∀ v ∈ u.values, Plain v.value) :
    Faithful m createValueDedupState deltas := by
  have hupdate : ∀ (context : Option String) (s : ValueDedupState) (u : DeltaUpdate), HoldsPlain s →
      (∀ v ∈ u.values, Plain v.value) →
      FaithfulUpdate m context s u ∧ HoldsPlain (dedupUpdate context s u).1 := by
    intro context s u hs hu
    rw [dedupUpdate, mapAccum_state]
    exact along_and_run (fun _ _ hs hv => hs.faithful_value hv) hs hu
  have hdelta : ∀ (s : ValueDedupState) (d : Delta), HoldsPlain s →
      (∀ u ∈ d.updates, ∀ v ∈ u.values, Plain v.value) →
      FaithfulDelta m s d ∧ HoldsPlain (dedupDelta s d).1 := by
    intro s d hs hd
    rw [dedupDelta, mapAccum_state]
    exact along_and_run (fun s u hs hu => hupdate d.context s u hs hu) hs hd
  exact (along_and_run hdelta (fun _ => Or.inr (Or.inl rfl)) h).1

/-! ## The stream -/

/-- **The codec is lossless in order**, for a stream of values that are faithful, as all are through
JSON, exactly when none of them arrives as the reserved object. The stream may carry any number of
keys, so that both caches evict. -/
theorem dedup_lossless_iff (m : Bool) (deltas : List Delta)
    (h : m = true → Faithful true createValueDedupState deltas) :
    carriedOver m deltas = deltas.map (·.wire m) ↔
      ∀ d ∈ deltas, ∀ u ∈ d.updates, ∀ v ∈ u.values, Unreserved m v := by
  have hfaithful : Faithful m createValueDedupState deltas := by
    cases m with
    | true => exact h rfl
    | false => exact faithful_json _ _
  exact (mapAccum_exact (f := dedupDelta) (g := undedupDelta) (ω := (·.wire m))
    (fun _ _ _ h hd => h.exact_delta hd) LockStep.new hfaithful).1

/-- A depth that is lost, null, null again, and back. -/
def sampledStream : List Delta :=
  [.num .nan, .null, .null, .num (.finite 2)].map fun depth =>
    ⟨some "vessels.self", [{ values := [⟨"environment.depth.belowKeel", depth⟩] }]⟩

theorem dedup_lossless_sampledStream :
    carriedOver true sampledStream = sampledStream.map (·.wire true) :=
  (dedup_lossless_iff true sampledStream fun _ => by decide +kernel).2 (by decide +kernel)

/-- A value that is the reserved object. -/
def reservedStream : List Delta :=
  [⟨some "vessels.self", [{ values := [⟨"notifications.test", .obj [("$$", .str "dup")]⟩] }]⟩]

/-- **A user's value that looks like the sentinel** is dropped. -/
theorem reserved_is_dropped :
    carriedOver false reservedStream ≠ reservedStream.map (·.wire false) ∧
      carriedOver true reservedStream ≠ reservedStream.map (·.wire true) := by
  decide +kernel

end EdgeLink
