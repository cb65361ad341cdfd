import EdgeLink.Codec.PathRules
import EdgeLink.Codec.ValueDedup
import EdgeLink.Foundations.Lists

/-!
# Sending a batch

`prepareDeltaPayload` and `sendDelta` of `transport/pipeline/reliable-client/delta-sender.ts`, with
the two records of the encoder that they advance, and a retry of the same batch.

* `retry_serialises_same`: a failed attempt leaves no trace in what the retry serialises, for every
  batch on the given paths and every state, exactly when no such path is deduplicated or throttled.
* `retry_skipped`, `retry_sentinels`: a retry that sends nothing, and one that sends sentinels.
-/

namespace EdgeLink

/-- The options of a connection that the sender reads. -/
structure SendOptions where
  pathFilter : PathFilterConfig := {}
  pathPrecision : List (String × ℕ) := []
  pathThrottle : List (String × PathThrottleRule) := []
  useValueDedup : Bool := false
  useMsgpack : Bool := false

/-- What the encoder remembers of the values sent. -/
structure EncoderState where
  throttleState : PathThrottleState
  dedupState : ValueDedupState

def EncoderState.new : EncoderState := ⟨createPathThrottleState, createValueDedupState⟩

/-- The outbound transforms of a batch, `none` when one of them drops everything. -/
def prepareDeltaPayload (doubles : Doubles) (options : SendOptions) (s : EncoderState)
    (nowMs : Time) (deltas : List Delta) : EncoderState × Option (List Delta) :=
  match (sanitizeDeltaPayloadForSignalK deltas).bind (filterDeltaPayload options.pathFilter) with
  | none => (s, none)
  | some filtered =>
    let quantized := quantizeDeltaPayload doubles options.pathPrecision filtered
    let r := throttleDeltaPayload doubles options.pathThrottle nowMs s.throttleState quantized
    match r.2 with
    | none => ({ s with throttleState := r.1 }, none)
    | some throttled =>
      if options.useValueDedup then
        let d := dedupDeltaArray s.dedupState throttled
        (⟨r.1, d.1⟩, some d.2)
      else ({ s with throttleState := r.1 }, some throttled)

/-- The steps of a send that can fail. -/
inductive SendStep
  | serialise
  | compress
  | encrypt
  | packetBuild
  | udpSend
  deriving DecidableEq

/-- How a send ends, and what it has serialised. -/
inductive SendOutcome
  /-- it returns without sending -/
  | skipped
  | failed (step : SendStep) (serialized : List Delta)
  | sent (serialized : List Delta)
  deriving DecidableEq

/-- Send a batch; `failure` is the step that fails. -/
def sendDelta (doubles : Doubles) (options : SendOptions) (s : EncoderState) (nowMs : Time)
    (deltas : List Delta) (failure : Option SendStep) : EncoderState × SendOutcome :=
  let prepared := prepareDeltaPayload doubles options s nowMs deltas
  match prepared.2 with
  | none => (prepared.1, .skipped)
  | some processed =>
    let serialized := processed.map (·.wire options.useMsgpack)
    match failure with
    | some step => (prepared.1, .failed step serialized)
    | none => (prepared.1, .sent serialized)

/-- After a failed attempt, the retry of the batch serialises what the attempt has serialised. -/
def RetrySerialisesSame (doubles : Doubles) (options : SendOptions) (deltas : List Delta) : Prop :=
  ∀ (s : EncoderState) (nowMs retryMs : Time) (step : SendStep) (serialized : List Delta),
    nowMs ≤ retryMs →
    (sendDelta doubles options s nowMs deltas (some step)).2 = .failed step serialized →
    (sendDelta doubles options (sendDelta doubles options s nowMs deltas (some step)).1 retryMs
      deltas none).2 = .sent serialized

/-- The encoder remembers the values of a path: they are deduplicated, or a rule can drop them. -/
def SendOptions.Remembers (options : SendOptions) (path : String) : Prop :=
  options.useValueDedup = true ∨ ¬ Unthrottled options.pathThrottle path

/-! ## Paths that the encoder does not remember -/

section Stateless

variable {doubles : Doubles} {options : SendOptions} {P : String → Prop}

theorem filterDeltaPayload_ne_nil {config : PathFilterConfig} {deltas out : List Delta}
    (hne : deltas ≠ []) (h : filterDeltaPayload config deltas = some out) : out ≠ [] := by
  rw [filterDeltaPayload] at h
  split at h
  · obtain rfl := Option.some.inj h
    exact hne
  · split at h
    · cases h
    · next hcons =>
      obtain rfl := Option.some.inj h
      exact hcons

theorem sanitizeDeltaPayload_ne_nil {deltas out : List Delta}
    (h : sanitizeDeltaPayloadForSignalK deltas = some out) : out ≠ [] := by
  rw [sanitizeDeltaPayloadForSignalK] at h
  split at h
  · cases h
  · next hcons =>
    obtain rfl := Option.some.inj h
    exact hcons

theorem quantizeDeltaPayload_ne_nil (doubles : Doubles) (precisionMap : List (String × ℕ))
    {deltas : List Delta} (hne : deltas ≠ []) :
    quantizeDeltaPayload doubles precisionMap deltas ≠ [] := by
  rw [quantizeDeltaPayload]
  split_ifs
  · exact hne
  · simpa using hne

theorem prepareDeltaPayload_none {s : EncoderState} {nowMs : Time} {deltas : List Delta}
    (h : (sanitizeDeltaPayloadForSignalK deltas).bind
      (filterDeltaPayload options.pathFilter) = none) :
    prepareDeltaPayload doubles options s nowMs deltas = (s, none) := by
  rw [prepareDeltaPayload, h]

/-- What a batch becomes when the throttle lets something through. -/
theorem prepareDeltaPayload_some {s : EncoderState} {nowMs : Time}
    {deltas filtered quantized throttled : List Delta}
    (h : (sanitizeDeltaPayloadForSignalK deltas).bind
      (filterDeltaPayload options.pathFilter) = some filtered)
    (hq : quantizeDeltaPayload doubles options.pathPrecision filtered = quantized)
    {throttleState : PathThrottleState}
    (ht : throttleDeltaPayload doubles options.pathThrottle nowMs s.throttleState quantized =
      (throttleState, some throttled)) :
    prepareDeltaPayload doubles options s nowMs deltas =
      if options.useValueDedup then
        (⟨throttleState, (dedupDeltaArray s.dedupState throttled).1⟩,
          some (dedupDeltaArray s.dedupState throttled).2)
      else (⟨throttleState, s.dedupState⟩, some throttled) := by
  rw [prepareDeltaPayload, h]
  dsimp only
  rw [hq, ht]

theorem prepareDeltaPayload_dropped {s : EncoderState} {nowMs : Time}
    {deltas filtered quantized : List Delta}
    (h : (sanitizeDeltaPayloadForSignalK deltas).bind
      (filterDeltaPayload options.pathFilter) = some filtered)
    (hq : quantizeDeltaPayload doubles options.pathPrecision filtered = quantized)
    (ht : (throttleDeltaPayload doubles options.pathThrottle nowMs s.throttleState
      quantized).2 = none) :
    (prepareDeltaPayload doubles options s nowMs deltas).2 = none := by
  rw [prepareDeltaPayload, h]
  dsimp only
  rw [hq, ht]

/-- A batch without values is encoded as it is. -/
theorem dedupDeltaArray_of_no_values {deltas : List Delta}
    (h : ∀ d ∈ deltas, d.OnPaths fun _ => False) (state : ValueDedupState) :
    (dedupDeltaArray state deltas).2 = deltas := by
  rw [dedupDeltaArray, mapAccum_snd_of_forall (g := id) _ state, List.map_id]
  intro d hd state
  rw [dedupDelta, mapAccum_snd_of_forall (g := id) _ state, List.map_id, id]
  intro u hu state
  have hvalues : u.values = [] := List.eq_nil_iff_forall_not_mem.2 (h d hd u hu)
  rw [dedupUpdate, hvalues, mapAccum_nil]
  exact congrArg (fun values => { u with values := values }) hvalues.symm

/-- **Stateless paths.** What is prepared of a batch on paths that the encoder does not remember
depends on nothing but the batch. -/
theorem prepareDeltaPayload_stateless {deltas : List Delta} (h : ∀ d ∈ deltas, d.OnPaths P)
    (hP : ∀ path, P path → isValidValuePath path → isPathAllowed path options.pathFilter →
      ¬ options.Remembers path) (s s' : EncoderState) (nowMs retryMs : Time) :
    (prepareDeltaPayload doubles options s nowMs deltas).2 =
      (prepareDeltaPayload doubles options s' retryMs deltas).2 := by
  cases hfiltered : (sanitizeDeltaPayloadForSignalK deltas).bind
    (filterDeltaPayload options.pathFilter) with
  | none => rw [prepareDeltaPayload_none hfiltered, prepareDeltaPayload_none hfiltered]
  | some filtered =>
    obtain ⟨sanitized, hsanitized, hfilter⟩ := Option.bind_eq_some_iff.1 hfiltered
    have hpaths := onPaths_quantizeDeltaPayload doubles options.pathPrecision
      (onPaths_filterDeltaPayload (onPaths_sanitizeDeltaPayload h hsanitized) hfilter)
    have hne := quantizeDeltaPayload_ne_nil doubles options.pathPrecision
      (filterDeltaPayload_ne_nil (sanitizeDeltaPayload_ne_nil hsanitized) hfilter)
    obtain ⟨quantized, hquantized⟩ :
      ∃ q, quantizeDeltaPayload doubles options.pathPrecision filtered = q := ⟨_, rfl⟩
    rw [hquantized] at hpaths hne
    have hforget : ∀ d ∈ quantized, d.OnPaths fun path => ¬ options.Remembers path := by
      intro d hd u hu v hv
      obtain ⟨⟨hpath, hvalid⟩, hallowed⟩ := hpaths d hd u hu v hv
      exact hP v.path hpath hvalid hallowed
    have hfree : ∀ d ∈ quantized, d.OnPaths (Unthrottled options.pathThrottle) :=
      fun d hd u hu v hv => not_not.1 fun ht => hforget d hd u hu v hv (.inr ht)
    have hprepared : ∀ s nowMs,
        (prepareDeltaPayload doubles options s nowMs deltas).2 = some quantized := by
      intro s nowMs
      rw [prepareDeltaPayload_some hfiltered hquantized (Prod.ext rfl
        (throttleDeltaPayload_unthrottled doubles nowMs hfree hne s.throttleState))]
      split
      · next hdedup =>
        exact congrArg some (dedupDeltaArray_of_no_values
          (fun d hd u hu v hv => hforget d hd u hu v hv (.inl hdedup)) s.dedupState)
      · rfl
    rw [hprepared, hprepared]

theorem sendDelta_failed {s s' : EncoderState} {nowMs : Time} {deltas processed : List Delta}
    (h : prepareDeltaPayload doubles options s nowMs deltas = (s', some processed))
    (step : SendStep) :
    sendDelta doubles options s nowMs deltas (some step) =
      (s', .failed step (processed.map (·.wire options.useMsgpack))) := by
  rw [sendDelta, h]

theorem sendDelta_sent {s : EncoderState} {nowMs : Time} {deltas processed : List Delta}
    (h : (prepareDeltaPayload doubles options s nowMs deltas).2 = some processed) :
    (sendDelta doubles options s nowMs deltas none).2 =
      .sent (processed.map (·.wire options.useMsgpack)) := by
  rw [sendDelta]
  dsimp only
  rw [h]

theorem sendDelta_skipped {s : EncoderState} {nowMs : Time} {deltas : List Delta}
    (h : (prepareDeltaPayload doubles options s nowMs deltas).2 = none)
    (failure : Option SendStep) :
    (sendDelta doubles options s nowMs deltas failure).2 = .skipped := by
  rw [sendDelta]
  dsimp only
  rw [h]

/-- What the retry sends when the batch is one whose retries serialise the same. -/
theorem RetrySerialisesSame.retry {s s' : EncoderState} {nowMs retryMs : Time}
    {deltas processed : List Delta} (h : RetrySerialisesSame doubles options deltas)
    (hfirst : prepareDeltaPayload doubles options s nowMs deltas = (s', some processed))
    (hle : nowMs ≤ retryMs) :
    (sendDelta doubles options s' retryMs deltas none).2 =
      .sent (processed.map (·.wire options.useMsgpack)) := by
  have hretry := h s nowMs retryMs .udpSend _ hle
    (congrArg Prod.snd (sendDelta_failed hfirst .udpSend))
  rwa [sendDelta_failed hfirst] at hretry

/-- A failed attempt has serialised what was prepared. -/
theorem serialized_of_failed {s : EncoderState} {nowMs : Time} {deltas serialized : List Delta}
    {step : SendStep}
    (h : (sendDelta doubles options s nowMs deltas (some step)).2 = .failed step serialized) :
    ∃ processed, (prepareDeltaPayload doubles options s nowMs deltas).2 = some processed ∧
      serialized = processed.map (·.wire options.useMsgpack) := by
  cases hp : (prepareDeltaPayload doubles options s nowMs deltas).2 with
  | none => exact nomatch (sendDelta_skipped hp (some step)).symm.trans h
  | some processed =>
    rw [sendDelta_failed (Prod.ext rfl hp)] at h
    injection h with _ hserialized
    exact ⟨processed, rfl, hserialized.symm⟩

end Stateless

/-! ## Paths that it does -/

section Stateful

variable {doubles : Doubles} {options : SendOptions} {path : String} {v : JsValue}
  {rule : PathThrottleRule}

/-- A delta with one value. -/
def Delta.single (context path : String) (value : JsValue) : Delta :=
  ⟨some context, [{ values := [⟨path, value⟩] }]⟩

/-- Values on a valid path that the filter lets through pass the sanitiser and the filter. -/
theorem filtered_singles (hvalid : isValidValuePath path)
    (hallowed : isPathAllowed path options.pathFilter) {deltas : List Delta} (hne : deltas ≠ [])
    (h : ∀ d ∈ deltas, ∃ context, d = .single context path v) :
    (sanitizeDeltaPayloadForSignalK deltas).bind (filterDeltaPayload options.pathFilter) =
      some deltas := by
  have hsanitize : deltas.filterMap sanitizeDeltaForSignalK = deltas := by
    refine filterMap_eq_self fun d hd => ?_
    obtain ⟨context, rfl⟩ := h d hd
    simp [sanitizeDeltaForSignalK, sanitizeUpdateForSignalK, Delta.single, hvalid]
  have hfilter : deltas.filterMap (filterDelta options.pathFilter) = deltas := by
    refine filterMap_eq_self fun d hd => ?_
    obtain ⟨context, rfl⟩ := h d hd
    simp [filterDelta, filterUpdate, Delta.single, hallowed]
  rw [sanitizeDeltaPayloadForSignalK, hsanitize]
  cases deltas with
  | nil => exact absurd rfl hne
  | cons d ds =>
    rw [Option.bind_some, filterDeltaPayload, hfilter]
    split <;> rfl

theorem quantizeDeltaPayload_singles (doubles : Doubles) (options : SendOptions)
    (hv : quantizeValue doubles options.pathPrecision path v = v) {deltas : List Delta}
    (h : ∀ d ∈ deltas, ∃ context, d = .single context path v) :
    quantizeDeltaPayload doubles options.pathPrecision deltas = deltas := by
  rw [quantizeDeltaPayload]
  split
  · rfl
  · refine (List.map_congr_left fun d hd => ?_).trans (List.map_id deltas)
    obtain ⟨context, rfl⟩ := h d hd
    simp [quantizeDelta, Delta.single, hv]

theorem throttleDelta_single (hrule : options.pathThrottle.lookup path = some rule)
    (context : String) (nowMs : Time) (state : PathThrottleState) :
    throttleDelta doubles options.pathThrottle nowMs state (.single context path v) =
      if shouldDropValue doubles ⟨path, v⟩ rule
          (state.lastSent.get? (throttleKey (some context) none path)) nowMs then (state, none)
      else (recordSentValue state (throttleKey (some context) none path) ⟨path, v⟩ nowMs,
        some (.single context path v)) := by
  simp only [throttleDelta, Delta.single, throttleUpdate, mapAccum_cons, mapAccum_nil,
    throttleValue, hrule]
  split <;> simp

theorem throttleDelta_single_none (hrule : options.pathThrottle.lookup path = none)
    (context : String) (nowMs : Time) (state : PathThrottleState) :
    throttleDelta doubles options.pathThrottle nowMs state (.single context path v) =
      (state, some (.single context path v)) := by
  simp [throttleDelta, Delta.single, throttleUpdate, throttleValue, hrule]

/-- Through the throttle, from a state that has no record of the value. -/
theorem throttleDeltaPayload_fresh (doubles : Doubles) (options : SendOptions)
    (context path : String) (v : JsValue) (nowMs : Time) {state : PathThrottleState}
    (hfresh : state.lastSent.get? (throttleKey (some context) none path) = none) :
    ∃ state', throttleDeltaPayload doubles options.pathThrottle nowMs state
      [.single context path v] = (state', some [.single context path v]) ∧
      ∀ rule ∈ options.pathThrottle.lookup path,
        state'.lastSent.get? (throttleKey (some context) none path) =
          some ⟨nowMs, numberOf v⟩ := by
  by_cases hmap : options.pathThrottle = []
  · refine ⟨state, by rw [throttleDeltaPayload, if_pos hmap], fun rule hrule => ?_⟩
    rw [hmap] at hrule
    cases hrule
  · cases hrule : options.pathThrottle.lookup path with
    | none =>
      refine ⟨state, ?_, fun rule h => by cases h⟩
      rw [throttleDeltaPayload, if_neg hmap, mapAccum_cons, throttleDelta_single_none hrule]
      rfl
    | some rule =>
      refine ⟨_, ?_, fun _ _ => get?_recordSentValue_self state _ ⟨path, v⟩ nowMs⟩
      rw [throttleDeltaPayload, if_neg hmap, mapAccum_cons, throttleDelta_single hrule, hfresh]
      rfl

/-- Through the throttle, a value on its own is dropped or goes through as it is. -/
theorem throttleDeltaPayload_single (doubles : Doubles) (options : SendOptions)
    (context path : String) (v : JsValue) (nowMs : Time) (state : PathThrottleState) :
    (throttleDeltaPayload doubles options.pathThrottle nowMs state
        [.single context path v]).2 = none ∨
      (throttleDeltaPayload doubles options.pathThrottle nowMs state
        [.single context path v]).2 = some [.single context path v] := by
  rw [throttleDeltaPayload]
  split
  · exact .inr rfl
  · rw [mapAccum_cons]
    cases hrule : options.pathThrottle.lookup path with
    | none =>
      rw [throttleDelta_single_none hrule]
      exact .inr rfl
    | some rule =>
      rw [throttleDelta_single hrule]
      split
      · exact .inl rfl
      · exact .inr rfl

/-- An unchanged value is replaced by the sentinel. -/
theorem dedupDeltaArray_single (context : String) {state : ValueDedupState} (hpath : path ≠ "")
    (hcached : state.lookup (cacheKey (some context) path) = v) (hv : v ≠ .undefined) :
    (dedupDeltaArray state [.single context path v]).2 =
      [.single context path DUP_SENTINEL] := by
  have hvalue : (dedupValue (some context) state ⟨path, v⟩).2 = ⟨path, DUP_SENTINEL⟩ := by
    simp [dedupValue, hpath, hcached, hv]
  simp only [dedupDeltaArray, Delta.single, dedupDelta, dedupUpdate, mapAccum_cons, mapAccum_nil,
    hvalue]

/-- A first value is sent, and remembered. -/
theorem dedupDeltaArray_single_fresh (context : String) {state : ValueDedupState}
    (hpath : path ≠ "") (hfresh : state.lookup (cacheKey (some context) path) = .undefined) :
    dedupDeltaArray state [.single context path v] =
      (state.write (cacheKey (some context) path) v, [.single context path v]) := by
  have hvalue : dedupValue (some context) state ⟨path, v⟩ =
      (state.write (cacheKey (some context) path) v, ⟨path, v⟩) := by
    simp [dedupValue, hpath, hfresh]
  simp only [dedupDeltaArray, Delta.single, dedupDelta, dedupUpdate, mapAccum_cons, mapAccum_nil,
    hvalue]

/-- A retry of a value that the first attempt has put into the dedup cache. -/
theorem not_retry_of_dedup (hvalid : isValidValuePath path)
    (hallowed : isPathAllowed path options.pathFilter) (hdedup : options.useValueDedup = true) :
    ¬ RetrySerialisesSame doubles options [.single "vessels.self" path (.bool true)] := by
  intro h
  have hpath := ne_empty_of_isValidValuePath hvalid
  have hsingle : ∀ d ∈ [Delta.single "vessels.self" path (.bool true)],
      ∃ context, d = .single context path (.bool true) :=
    fun d hd => ⟨_, List.mem_singleton.1 hd⟩
  have hfiltered := filtered_singles hvalid hallowed (List.cons_ne_nil _ _) hsingle
  have hquantized := quantizeDeltaPayload_singles doubles options
    (by simp [quantizeValue]) hsingle
  -- The first attempt sends the value and caches it.
  obtain ⟨throttleState, ht, -⟩ := throttleDeltaPayload_fresh doubles options "vessels.self"
    path (.bool true) 0 (show EncoderState.new.throttleState.lastSent.get? _ = none from rfl)
  have hfirst : prepareDeltaPayload doubles options .new 0
      [.single "vessels.self" path (.bool true)] =
      (⟨throttleState, createValueDedupState.write (cacheKey (some "vessels.self") path)
        (.bool true)⟩, some [.single "vessels.self" path (.bool true)]) := by
    rw [prepareDeltaPayload_some (s := .new) hfiltered hquantized ht, if_pos hdedup,
      dedupDeltaArray_single_fresh _ hpath rfl]
    rfl
  have hretry := h.retry hfirst (le_refl 0)
  -- The retry finds it there, unless the throttle drops it.
  rcases throttleDeltaPayload_single doubles options "vessels.self" path (.bool true) 0
    throttleState with hdrop | hpass
  · have hsecond := prepareDeltaPayload_dropped (s := ⟨throttleState,
      createValueDedupState.write (cacheKey (some "vessels.self") path) (.bool true)⟩)
      hfiltered hquantized hdrop
    rw [sendDelta_skipped hsecond] at hretry
    nomatch hretry
  · have hsecond := prepareDeltaPayload_some (s := ⟨throttleState,
      createValueDedupState.write (cacheKey (some "vessels.self") path) (.bool true)⟩)
      hfiltered hquantized (Prod.ext rfl hpass)
    have hsentinel := dedupDeltaArray_single "vessels.self" hpath
      (lookup_write_self createValueDedupState (cacheKey (some "vessels.self") path) (.bool true))
      (show JsValue.bool true ≠ .undefined from nofun)
    rw [if_pos hdedup, hsentinel] at hsecond
    rw [sendDelta_sent (congrArg Prod.snd hsecond)] at hretry
    cases hm : options.useMsgpack <;>
      simp [hm, Delta.single, Delta.wire, DeltaUpdate.wire, DeltaValue.wire, DUP_SENTINEL,
        JsValue.wire, JsValue.packed, JsValue.stringify] at hretry

theorem pathThrottle_ne_nil (hrule : options.pathThrottle.lookup path = some rule) :
    options.pathThrottle ≠ [] := by
  rintro hnil
  rw [hnil] at hrule
  nomatch hrule

/-- A retry of a number that is within the deadband of itself. -/
theorem not_retry_of_deadband (hvalid : isValidValuePath path)
    (hallowed : isPathAllowed path options.pathFilter) (hdedup : options.useValueDedup = false)
    (hrule : options.pathThrottle.lookup path = some rule) {deadband : ℚ}
    (hdeadband : rule.deadband = some deadband) (hpos : 0 < deadband) :
    ¬ RetrySerialisesSame doubles options [.single "vessels.self" path (.num (.finite 0))] := by
  intro h
  have hsingle : ∀ d ∈ [Delta.single "vessels.self" path (.num (.finite 0))],
      ∃ context, d = .single context path (.num (.finite 0)) :=
    fun d hd => ⟨_, List.mem_singleton.1 hd⟩
  have hzero : quantizeValue doubles options.pathPrecision path (.num (.finite 0)) =
      .num (.finite 0) := by
    rw [quantizeValue]
    split
    · rfl
    · rw [roundTo_zero]
  have hfiltered := filtered_singles hvalid hallowed (List.cons_ne_nil _ _) hsingle
  have hquantized := quantizeDeltaPayload_singles doubles options hzero hsingle
  -- The first attempt records the number.
  obtain ⟨throttleState, ht, hlast⟩ := throttleDeltaPayload_fresh doubles options "vessels.self"
    path (.num (.finite 0)) 0 (show EncoderState.new.throttleState.lastSent.get? _ = none from rfl)
  have hfirst := prepareDeltaPayload_some (s := .new) hfiltered hquantized ht
  rw [hdedup, if_neg Bool.false_ne_true] at hfirst
  have hretry := h.retry hfirst (le_refl 0)
  -- The retry is at distance zero from it.
  have hdrop : (throttleDeltaPayload doubles options.pathThrottle 0 throttleState
      [.single "vessels.self" path (.num (.finite 0))]).2 = none := by
    have hwithin : shouldDropValue doubles ⟨path, .num (.finite 0)⟩ rule
        (some ⟨0, numberOf (.num (.finite 0))⟩) 0 = true := by
      simp [shouldDropValue, hdeadband, numberOf, withinDeadband, doubles.round_zero, hpos]
    rw [throttleDeltaPayload, if_neg (pathThrottle_ne_nil hrule), mapAccum_cons,
      throttleDelta_single hrule, hlast rule hrule, hwithin]
    rfl
  have hsecond := prepareDeltaPayload_dropped (s := ⟨throttleState, EncoderState.new.dedupState⟩)
    hfiltered hquantized hdrop
  rw [sendDelta_skipped hsecond] at hretry
  cases hretry

/-- A value that is not a number passes a rule when the interval is over. -/
theorem shouldDropValue_false {minIntervalMs : ℕ}
    (hinterval : rule.minIntervalMs = some minIntervalMs) (b : Bool) {last? : Option LastSent}
    {nowMs : Time} (h : ∀ last ∈ last?, last.atMs + (minIntervalMs : ℤ) ≤ nowMs) :
    shouldDropValue doubles ⟨path, .bool b⟩ rule last? nowMs = false := by
  cases last? with
  | none => rfl
  | some last =>
    have hover : ¬ nowMs - last.atMs < (minIntervalMs : ℤ) :=
      Int.not_lt.2 (Int.le_sub_left_of_add_le (h last rfl))
    cases hd : rule.deadband <;> simp [shouldDropValue, hinterval, hd, numberOf, hover]

theorem throttleDeltaPayload_pair {nowMs : Time} {state state' state'' : PathThrottleState}
    {a b : Delta} {a' : Option Delta} (hne : options.pathThrottle ≠ [])
    (ha : throttleDelta doubles options.pathThrottle nowMs state a = (state', a'))
    (hb : throttleDelta doubles options.pathThrottle nowMs state' b = (state'', some b)) :
    throttleDeltaPayload doubles options.pathThrottle nowMs state [a, b] =
      (state'', some (a'.toList ++ [b])) := by
  rw [throttleDeltaPayload, if_neg hne, mapAccum_cons, mapAccum_cons, ha, hb]
  cases a' <;> rfl

theorem throttleKey_ne (path : String) :
    throttleKey (some "vessels.buddy") none path ≠ throttleKey (some "vessels.self") none path := by
  intro h
  have := congrArg String.toList h
  simp [throttleKey] at this

section Interval

variable {minIntervalMs : ℕ} {lastSent : OrderedMap String LastSent}

/-- The value of one vessel has been recorded a moment ago, the other vessel's has not: the first
attempt drops the one and sends the other. -/
theorem throttle_first (doubles : Doubles) (hrule : options.pathThrottle.lookup path = some rule)
    (hinterval : rule.minIntervalMs = some minIntervalMs)
    (hself : lastSent.get? (throttleKey (some "vessels.self") none path) = some ⟨1, none⟩)
    (hbuddy : lastSent.get? (throttleKey (some "vessels.buddy") none path) = none) :
    throttleDeltaPayload doubles options.pathThrottle 0 ⟨lastSent⟩
        [.single "vessels.self" path (.bool true), .single "vessels.buddy" path (.bool true)] =
      (recordSentValue ⟨lastSent⟩ (throttleKey (some "vessels.buddy") none path)
        ⟨path, .bool true⟩ 0, some [.single "vessels.buddy" path (.bool true)]) := by
  have hdropped : shouldDropValue doubles ⟨path, .bool true⟩ rule (some ⟨1, none⟩) 0 = true := by
    have hearly : (0 : ℤ) - 1 < (minIntervalMs : ℤ) := by omega
    rw [shouldDropValue, hinterval, Option.any_some, decide_eq_true hearly, Bool.true_or]
  have hself₁ : throttleDelta doubles options.pathThrottle 0 ⟨lastSent⟩
      (.single "vessels.self" path (.bool true)) = (⟨lastSent⟩, none) := by
    rw [throttleDelta_single hrule, hself, if_pos hdropped]
  refine throttleDeltaPayload_pair (pathThrottle_ne_nil hrule) hself₁ ?_
  rw [throttleDelta_single hrule, hbuddy]
  rfl

/-- The retry sends both. -/
theorem throttle_retry (doubles : Doubles) (hrule : options.pathThrottle.lookup path = some rule)
    (hinterval : rule.minIntervalMs = some minIntervalMs)
    (hself : lastSent.get? (throttleKey (some "vessels.self") none path) = some ⟨1, none⟩) :
    (throttleDeltaPayload doubles options.pathThrottle (minIntervalMs + 1)
        (recordSentValue ⟨lastSent⟩ (throttleKey (some "vessels.buddy") none path)
          ⟨path, .bool true⟩ 0)
        [.single "vessels.self" path (.bool true), .single "vessels.buddy" path (.bool true)]).2 =
      some [.single "vessels.self" path (.bool true), .single "vessels.buddy" path (.bool true)] := by
  generalize hrecorded : recordSentValue ⟨lastSent⟩ (throttleKey (some "vessels.buddy") none path)
    ⟨path, .bool true⟩ 0 = recorded
  have hself₂ : throttleDelta doubles options.pathThrottle (minIntervalMs + 1) recorded
      (.single "vessels.self" path (.bool true)) =
      (recordSentValue recorded (throttleKey (some "vessels.self") none path)
        ⟨path, .bool true⟩ (minIntervalMs + 1),
        some (.single "vessels.self" path (.bool true))) := by
    rw [throttleDelta_single hrule, shouldDropValue_false hinterval, if_neg Bool.false_ne_true]
    intro last hlast
    rw [← hrecorded] at hlast
    have hkept := mem_get?_recordSentValue (throttleKey_ne path).symm hlast
    rw [hself] at hkept
    obtain rfl := Option.some.inj hkept
    exact (Int.add_comm 1 _).le
  have hbuddy₂ : (throttleDelta doubles options.pathThrottle (minIntervalMs + 1)
      (recordSentValue recorded (throttleKey (some "vessels.self") none path)
        ⟨path, .bool true⟩ (minIntervalMs + 1)) (.single "vessels.buddy" path (.bool true))).2 =
      some (.single "vessels.buddy" path (.bool true)) := by
    rw [throttleDelta_single hrule, shouldDropValue_false hinterval, if_neg Bool.false_ne_true]
    intro last hlast
    have hkept := mem_get?_recordSentValue (throttleKey_ne path) hlast
    rw [← hrecorded, get?_recordSentValue_self] at hkept
    obtain rfl := Option.some.inj hkept
    exact (Int.zero_add _).le.trans (Int.le_add_of_nonneg_right Int.one_nonneg)
  have hpair := throttleDeltaPayload_pair (pathThrottle_ne_nil hrule) hself₂ (Prod.ext rfl hbuddy₂)
  rw [hpair]
  rfl

/-- A retry that comes when the interval of a value is over. -/
theorem not_retry_of_interval (hvalid : isValidValuePath path)
    (hallowed : isPathAllowed path options.pathFilter) (hdedup : options.useValueDedup = false)
    (hrule : options.pathThrottle.lookup path = some rule)
    (hinterval : rule.minIntervalMs = some minIntervalMs) :
    ¬ RetrySerialisesSame doubles options
      [.single "vessels.self" path (.bool true), .single "vessels.buddy" path (.bool true)] := by
  intro h
  have hsingle : ∀ d ∈ [Delta.single "vessels.self" path (.bool true),
      .single "vessels.buddy" path (.bool true)],
      ∃ context, d = .single context path (.bool true) := by
    intro d hd
    rcases List.mem_cons.1 hd with rfl | hd
    · exact ⟨_, rfl⟩
    · exact ⟨_, List.mem_singleton.1 hd⟩
  have hfiltered := filtered_singles hvalid hallowed (List.cons_ne_nil _ _) hsingle
  have hquantized := quantizeDeltaPayload_singles doubles options
    (by simp [quantizeValue]) hsingle
  obtain ⟨lastSent, hlastSent⟩ : ∃ m, m = OrderedMap.set .empty
    (throttleKey (some "vessels.self") none path) (⟨1, none⟩ : LastSent) := ⟨_, rfl⟩
  have hself : lastSent.get? (throttleKey (some "vessels.self") none path) = some ⟨1, none⟩ := by
    rw [hlastSent, OrderedMap.get?_set_self]
  have hbuddy : lastSent.get? (throttleKey (some "vessels.buddy") none path) = none := by
    rw [hlastSent, OrderedMap.get?_set_of_ne _ (throttleKey_ne path)]
    rfl
  have hdropped := throttle_first doubles hrule hinterval hself hbuddy
  have hboth := throttle_retry doubles hrule hinterval hself
  generalize recordSentValue ⟨lastSent⟩ (throttleKey (some "vessels.buddy") none path)
    ⟨path, .bool true⟩ 0 = recorded at hdropped hboth
  have hfirst := prepareDeltaPayload_some (s := ⟨⟨lastSent⟩, createValueDedupState⟩) hfiltered
    hquantized hdropped
  rw [hdedup, if_neg Bool.false_ne_true] at hfirst
  have hretry := h.retry hfirst
    (show (0 : Time) ≤ minIntervalMs + 1 from Int.le_add_one (Int.natCast_nonneg _))
  have hsecond := prepareDeltaPayload_some (s := ⟨recorded, createValueDedupState⟩) hfiltered
    hquantized (Prod.ext rfl hboth)
  rw [hdedup, if_neg Bool.false_ne_true] at hsecond
  rw [sendDelta_sent (congrArg Prod.snd hsecond)] at hretry
  injection hretry with hlists
  exact absurd (congrArg List.length hlists) (by simp)

end Interval

end Stateful

/-- **Atomicity of a failed send.** For every batch on the paths in `P`, every state of the encoder,
every step that fails and every time of the retry, the retry serialises what the failed attempt has
serialised, exactly when no path in `P` that can be sent is one that the encoder remembers. -/
theorem retry_serialises_same (doubles : Doubles) (options : SendOptions) (P : String → Prop) :
    (∀ deltas, (∀ d ∈ deltas, d.OnPaths P) → RetrySerialisesSame doubles options deltas) ↔
      ∀ path, P path → isValidValuePath path → isPathAllowed path options.pathFilter →
        ¬ options.Remembers path := by
  constructor
  · intro h path hpath hvalid hallowed hremembers
    have hbatch : ∀ deltas : List Delta, (∀ d ∈ deltas, ∃ context v, d = .single context path v) →
        RetrySerialisesSame doubles options deltas := by
      intro deltas hsingle
      refine h deltas fun d hd u hu v hv => ?_
      obtain ⟨context, value, rfl⟩ := hsingle d hd
      obtain rfl := List.mem_singleton.1 hu
      obtain rfl := List.mem_singleton.1 hv
      exact hpath
    have hone : ∀ v, RetrySerialisesSame doubles options [.single "vessels.self" path v] :=
      fun v => hbatch _ fun d hd => ⟨_, _, List.mem_singleton.1 hd⟩
    cases hdedup : options.useValueDedup with
    | true => exact not_retry_of_dedup hvalid hallowed hdedup (hone _)
    | false =>
      have hthrottled := hremembers.resolve_left (hdedup ▸ Bool.false_ne_true)
      rw [Unthrottled] at hthrottled
      push Not at hthrottled
      obtain ⟨rule, hrule, hbusy⟩ := hthrottled
      cases hinterval : rule.minIntervalMs with
      | some minIntervalMs =>
        refine not_retry_of_interval hvalid hallowed hdedup hrule hinterval (hbatch _ ?_)
        intro d hd
        rcases List.mem_cons.1 hd with rfl | hd
        · exact ⟨_, _, rfl⟩
        · exact ⟨_, _, List.mem_singleton.1 hd⟩
      | none =>
        rw [PathThrottleRule.Idle] at hbusy
        push Not at hbusy
        obtain ⟨deadband, hdeadband, hpos⟩ := hbusy hinterval
        exact not_retry_of_deadband hvalid hallowed hdedup hrule hdeadband hpos (hone _)
  · intro h deltas hpaths s nowMs retryMs step serialized _ hfailed
    obtain ⟨processed, hprepared, rfl⟩ := serialized_of_failed hfailed
    refine sendDelta_sent ?_
    rw [← hprepared]
    exact prepareDeltaPayload_stateless hpaths h ..

/-! ## Retries that differ -/

/-- Doubles without rounding. -/
def exactDoubles : Doubles := ⟨.finite, rfl⟩

def speedBatch : List Delta := [.single "vessels.self" "navigation.speedOverGround" (.bool true)]

/-- The retry sends sentinels for the values that the failed attempt did not deliver. -/
theorem retry_sentinels :
    let options : SendOptions := { useValueDedup := true }
    let failed := sendDelta exactDoubles options .new 0 speedBatch (some .udpSend)
    failed.2 = .failed .udpSend speedBatch ∧
      (sendDelta exactDoubles options failed.1 200 speedBatch none).2 =
        .sent [.single "vessels.self" "navigation.speedOverGround" DUP_SENTINEL] ∧
      ¬ RetrySerialisesSame exactDoubles options speedBatch := by
  have hrun : let options : SendOptions := { useValueDedup := true }
      let failed := sendDelta exactDoubles options .new 0 speedBatch (some .udpSend)
      failed.2 = .failed .udpSend speedBatch ∧
        (sendDelta exactDoubles options failed.1 200 speedBatch none).2 =
          .sent [.single "vessels.self" "navigation.speedOverGround" DUP_SENTINEL] := by
    decide +kernel
  refine ⟨hrun.1, hrun.2, fun h => ?_⟩
  have hretry := h .new 0 200 .udpSend speedBatch (by decide) hrun.1
  rw [hrun.2] at hretry
  revert hretry
  decide +kernel

/-- The retry sends nothing, and the batch counts as sent. -/
theorem retry_skipped :
    let options : SendOptions :=
      { pathThrottle := [("navigation.speedOverGround", { minIntervalMs := some 5000 })] }
    let failed := sendDelta exactDoubles options .new 0 speedBatch (some .udpSend)
    failed.2 = .failed .udpSend speedBatch ∧
      (sendDelta exactDoubles options failed.1 200 speedBatch none).2 = .skipped := by
  decide +kernel

end EdgeLink
