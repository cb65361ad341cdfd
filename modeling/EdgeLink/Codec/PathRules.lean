import EdgeLink.Codec.Delta
import EdgeLink.Foundations.Lists
import EdgeLink.Foundations.MapAccum
import EdgeLink.Foundations.OrderedMap
import EdgeLink.Foundations.Run
import Mathlib.Algebra.Order.Floor.Defs
import Mathlib.Algebra.Order.Round
import Mathlib.Data.Rat.Floor
import Mathlib.Tactic.NormNum

/-!
# The path rules

The outbound stages between the sanitiser and the codec: the allow and deny lists
(`codec/delta-sanitizer/filter.ts`), the rounding of numbers (`quantize.ts`) and the throttle and
deadband per path (`throttle.ts`), which keeps a bounded record of what was last sent. Double
precision arithmetic is exact arithmetic followed by `Doubles.round`.

* `Delta.OnPaths`: every value of a delta has a path of some kind. The stages keep it, and the
  filter adds that the path is let through.
* `throttleDeltaPayload_unthrottled`: where no rule can drop a value, the throttle changes nothing
  but its record.
-/

namespace EdgeLink

open JsValue

/-- Every value of a delta has a path in `P`. -/
def Delta.OnPaths (P : String → Prop) (delta : Delta) : Prop :=
  ∀ u ∈ delta.updates, ∀ v ∈ u.values, P v.path

/-- The rounding of a real result to double precision, which overflows to an infinity. -/
structure Doubles where
  round : ℚ → JsNumber
  round_zero : round 0 = .finite 0

/-! ## Allow and deny lists -/

structure PathFilterConfig where
  allow : List String := []
  deny : List String := []
  deriving DecidableEq

/-- `*`, a prefix that ends in `.*`, or the path itself. -/
def pathMatchesGlob (path pattern : String) : Bool :=
  if pattern = "*" then true
  else if ".*".toList.isSuffixOf pattern.toList then
    pattern.toList.dropLast.isPrefixOf path.toList
  else path == pattern

def isPathAllowed (path : String) (config : PathFilterConfig) : Bool :=
  if config.allow ≠ [] ∧ config.allow.all (fun p => !pathMatchesGlob path p) then false
  else if config.deny ≠ [] ∧ config.deny.any (pathMatchesGlob path) then false
  else true

/-- Drop the entries that the filter stops, and the update when nothing is left of it. -/
def filterUpdate (config : PathFilterConfig) (update : DeltaUpdate) : Option DeltaUpdate :=
  let values := update.values.filter fun v => isPathAllowed v.path config
  let meta? := update.metaEntries.map fun ms => ms.filter fun m => isPathAllowed m.path config
  if values = update.values ∧ meta? = update.metaEntries then some update
  else if values = [] ∧ meta?.getD [] = [] then none
  else if meta? = update.metaEntries then some { update with values := values }
  else some { update with
    values := values
    metaEntries := if meta?.getD [] = [] then none else meta? }

def filterDelta (config : PathFilterConfig) (delta : Delta) : Option Delta :=
  let updates := delta.updates.filterMap (filterUpdate config)
  if delta.updates ≠ [] ∧ updates = [] then none else some { delta with updates := updates }

/-- The filter of a batch; a configuration without rules lets everything through. -/
def filterDeltaPayload (config : PathFilterConfig) (deltas : List Delta) : Option (List Delta) :=
  if config.allow = [] ∧ config.deny = [] then some deltas
  else
    match deltas.filterMap (filterDelta config) with
    | [] => none
    | out => some out

/-! ## Rounding -/

/-- `Math.round` -/
def mathRound : JsNumber → JsNumber
  | .finite q => .finite ⌊q + 1 / 2⌋
  | n => n

/-- `Math.round(value * m) / m` for `m = 10 ** decimals`. -/
def roundTo (doubles : Doubles) (value : JsNumber) (decimals : ℕ) : JsNumber :=
  match value with
  | .finite q =>
    match mathRound (doubles.round (q * 10 ^ decimals)) with
    | .finite r => doubles.round (r / 10 ^ decimals)
    | n => n
  | n => n

theorem roundTo_zero (doubles : Doubles) (decimals : ℕ) :
    roundTo doubles (.finite 0) decimals = .finite 0 := by
  have hhalf : ⌊(2 : ℚ)⁻¹⌋ = 0 := by norm_num
  simp [roundTo, mathRound, doubles.round_zero, hhalf]

mutual

/-- Round the numbers of a value that have a precision, by dotted path. -/
def quantizeValue (doubles : Doubles) (precisionMap : List (String × ℕ)) (path : String) :
    JsValue → JsValue
  | .num n =>
    match precisionMap.lookup path with
    | none => .num n
    | some decimals => .num (roundTo doubles n decimals)
  | .obj fields => .obj (quantizeFields doubles precisionMap path fields)
  | v => v

def quantizeFields (doubles : Doubles) (precisionMap : List (String × ℕ)) (path : String) :
    List (String × JsValue) → List (String × JsValue)
  | [] => []
  | (k, v) :: rest => (k, quantizeValue doubles precisionMap (path ++ "." ++ k) v) ::
      quantizeFields doubles precisionMap path rest

end

def quantizeDelta (doubles : Doubles) (precisionMap : List (String × ℕ)) (delta : Delta) : Delta :=
  { delta with
    updates := delta.updates.map fun update => { update with
      values := update.values.map fun v =>
        { v with value := quantizeValue doubles precisionMap v.path v.value } } }

def quantizeDeltaPayload (doubles : Doubles) (precisionMap : List (String × ℕ))
    (deltas : List Delta) : List Delta :=
  if precisionMap = [] then deltas else deltas.map (quantizeDelta doubles precisionMap)

/-! ## Throttle and deadband -/

def PATH_THROTTLE_STATE_MAX : ℕ := 10000

structure PathThrottleRule where
  minIntervalMs : Option ℕ := none
  deadband : Option ℚ := none
  deriving DecidableEq

/-- When a value was last sent, and the value if it was a number. -/
structure LastSent where
  atMs : Time
  value : Option JsNumber

structure PathThrottleState where
  lastSent : OrderedMap String LastSent

def createPathThrottleState : PathThrottleState := ⟨.empty⟩

/-- `typeof value === "number" ? value : undefined` -/
def numberOf : JsValue → Option JsNumber
  | .num n => some n
  | _ => none

/-- `Math.abs(a - b) < deadband`; false when the difference is not finite. -/
def withinDeadband (doubles : Doubles) (a b : JsNumber) (deadband : ℚ) : Bool :=
  match a, b with
  | .finite p, .finite q =>
    match doubles.round (p - q) with
    | .finite r => |r| < deadband
    | _ => false
  | _, _ => false

/-- Whether a value is dropped under its rule, given the record of its key. -/
def shouldDropValue (doubles : Doubles) (v : DeltaValue) (rule : PathThrottleRule)
    (last? : Option LastSent) (nowMs : Time) : Bool :=
  match last? with
  | none => false
  | some last =>
    rule.minIntervalMs.any (fun (interval : ℕ) => nowMs - last.atMs < (interval : ℤ)) ||
      rule.deadband.any fun deadband =>
        (numberOf v.value).any fun a => last.value.any fun b => withinDeadband doubles a b deadband

/-- Record a value, evicting the least recently sent key of a full record. -/
def recordSentValue (state : PathThrottleState) (stateKey : String) (v : DeltaValue)
    (nowMs : Time) : PathThrottleState :=
  let lastSent :=
    if state.lastSent.has stateKey then state.lastSent.delete stateKey
    else if PATH_THROTTLE_STATE_MAX ≤ state.lastSent.size then
      match state.lastSent.keys.head? with
      | some oldest => state.lastSent.delete oldest
      | none => state.lastSent
    else state.lastSent
  ⟨lastSent.set stateKey ⟨nowMs, numberOf v.value⟩⟩

/-- The key of a value: every source of a (context, path) is throttled on its own. -/
def throttleKey (context sourceRef : Option String) (path : String) : String :=
  context.getD "undefined" ++ " " ++ sourceRef.getD "" ++ " " ++ path

def throttleValue (doubles : Doubles) (throttleMap : List (String × PathThrottleRule))
    (context sourceRef : Option String) (nowMs : Time) (state : PathThrottleState)
    (v : DeltaValue) : PathThrottleState × Option DeltaValue :=
  match throttleMap.lookup v.path with
  | none => (state, some v)
  | some rule =>
    let stateKey := throttleKey context sourceRef v.path
    if shouldDropValue doubles v rule (state.lastSent.get? stateKey) nowMs then (state, none)
    else (recordSentValue state stateKey v nowMs, some v)

/-- Throttle the values of an update; the update goes when all its values are dropped. -/
def throttleUpdate (doubles : Doubles) (throttleMap : List (String × PathThrottleRule))
    (context : Option String) (nowMs : Time) (state : PathThrottleState) (update : DeltaUpdate) :
    PathThrottleState × Option DeltaUpdate :=
  let r := mapAccum (throttleValue doubles throttleMap context update.sourceRef nowMs) state
    update.values
  if r.2.all Option.isSome then (r.1, some update)
  else if r.2.reduceOption = [] then (r.1, none)
  else (r.1, some { update with values := r.2.reduceOption })

def throttleDelta (doubles : Doubles) (throttleMap : List (String × PathThrottleRule))
    (nowMs : Time) (state : PathThrottleState) (delta : Delta) : PathThrottleState × Option Delta :=
  let r := mapAccum (throttleUpdate doubles throttleMap delta.context nowMs) state delta.updates
  if delta.updates ≠ [] ∧ r.2.reduceOption = [] then (r.1, none)
  else (r.1, some { delta with updates := r.2.reduceOption })

/-- The throttle of a batch, `none` when it drops everything. -/
def throttleDeltaPayload (doubles : Doubles) (throttleMap : List (String × PathThrottleRule))
    (nowMs : Time) (state : PathThrottleState) (deltas : List Delta) :
    PathThrottleState × Option (List Delta) :=
  if throttleMap = [] then (state, some deltas)
  else
    let r := mapAccum (throttleDelta doubles throttleMap nowMs) state deltas
    if r.2.reduceOption = [] then (r.1, none) else (r.1, some r.2.reduceOption)

/-! ## What the stages keep -/

section OnPaths

variable {P : String → Prop} {Q : String → Bool}

/-- A stage that filters the values of every update, and may drop updates. -/
theorem Delta.OnPaths.filterMap {f : DeltaUpdate → Option DeltaUpdate} {d d' : Delta}
    (hf : ∀ u u', f u = some u' → u'.values = u.values.filter fun v => Q v.path)
    (h : d.OnPaths P) (hd : d'.updates = d.updates.filterMap f) :
    d'.OnPaths fun path => P path ∧ Q path := by
  intro u' hu' v hv
  rw [hd] at hu'
  obtain ⟨u, hu, hfu⟩ := List.mem_filterMap.1 hu'
  rw [hf u u' hfu] at hv
  obtain ⟨hmem, hQ⟩ := List.mem_filter.1 hv
  exact ⟨h u hu v hmem, hQ⟩

theorem values_of_sanitizeUpdateForSignalK {u u' : DeltaUpdate}
    (h : sanitizeUpdateForSignalK u = some u') :
    u'.values = u.values.filter fun v => isValidValuePath v.path := by
  rw [sanitizeUpdateForSignalK] at h
  split_ifs at h
  obtain rfl := Option.some.inj h
  rfl

theorem values_of_filterUpdate {config : PathFilterConfig} {u u' : DeltaUpdate}
    (h : filterUpdate config u = some u') :
    u'.values = u.values.filter fun v => isPathAllowed v.path config := by
  rw [filterUpdate] at h
  split at h
  · next hsame =>
    obtain rfl := Option.some.inj h
    exact hsame.1.symm
  · split at h
    · nomatch h
    · split at h <;> obtain rfl := Option.some.inj h <;> rfl

/-- What is left of a batch has valid paths. -/
theorem onPaths_sanitizeDeltaPayload {deltas out : List Delta} (h : ∀ d ∈ deltas, d.OnPaths P)
    (hout : sanitizeDeltaPayloadForSignalK deltas = some out) :
    ∀ d ∈ out, d.OnPaths fun path => P path ∧ isValidValuePath path := by
  intro d' hd'
  rw [sanitizeDeltaPayloadForSignalK] at hout
  split at hout
  · cases hout
  · obtain rfl := Option.some.inj hout
    obtain ⟨d, hd, hs⟩ := List.mem_filterMap.1 hd'
    rw [sanitizeDeltaForSignalK] at hs
    split at hs
    · cases hs
    · obtain rfl := Option.some.inj hs
      exact (h d hd).filterMap (fun _ _ => values_of_sanitizeUpdateForSignalK) rfl

theorem isPathAllowed_of_no_rules {config : PathFilterConfig}
    (h : config.allow = [] ∧ config.deny = []) (path : String) : isPathAllowed path config := by
  rw [isPathAllowed, if_neg (fun hallow => hallow.1 h.1), if_neg (fun hdeny => hdeny.1 h.2)]

/-- What is left of a batch has paths that the filter lets through. -/
theorem onPaths_filterDeltaPayload {config : PathFilterConfig} {deltas out : List Delta}
    (h : ∀ d ∈ deltas, d.OnPaths P) (hout : filterDeltaPayload config deltas = some out) :
    ∀ d ∈ out, d.OnPaths fun path => P path ∧ isPathAllowed path config := by
  intro d' hd'
  rw [filterDeltaPayload] at hout
  split_ifs at hout with hnone
  · obtain rfl := Option.some.inj hout
    exact fun u hu v hv => ⟨h d' hd' u hu v hv, isPathAllowed_of_no_rules hnone v.path⟩
  · split at hout
    · nomatch hout
    · obtain rfl := Option.some.inj hout
      obtain ⟨d, hd, hf⟩ := List.mem_filterMap.1 hd'
      rw [filterDelta] at hf
      split_ifs at hf
      obtain rfl := Option.some.inj hf
      exact (h d hd).filterMap (fun _ _ => values_of_filterUpdate) rfl

theorem onPaths_quantizeDeltaPayload (doubles : Doubles) (precisionMap : List (String × ℕ))
    {deltas : List Delta} (h : ∀ d ∈ deltas, d.OnPaths P) :
    ∀ d ∈ quantizeDeltaPayload doubles precisionMap deltas, d.OnPaths P := by
  rw [quantizeDeltaPayload]
  split_ifs
  · exact h
  · intro d' hd' u' hu' v' hv'
    obtain ⟨d, hd, rfl⟩ := List.mem_map.1 hd'
    obtain ⟨u, hu, rfl⟩ := List.mem_map.1 hu'
    obtain ⟨v, hv, rfl⟩ := List.mem_map.1 hv'
    exact h d hd u hu v hv

end OnPaths

/-! ## The record -/

section Record

variable {state : PathThrottleState} {stateKey k : String} {v : DeltaValue} {nowMs : Time}

theorem get?_recordSentValue_self (state : PathThrottleState) (stateKey : String) (v : DeltaValue)
    (nowMs : Time) : (recordSentValue state stateKey v nowMs).lastSent.get? stateKey =
      some ⟨nowMs, numberOf v.value⟩ := by
  rw [recordSentValue]
  exact OrderedMap.get?_set_self ..

/-- Recording a value leaves the record of another key alone, or evicts it. -/
theorem mem_get?_recordSentValue (h : k ≠ stateKey) {last : LastSent}
    (hlast : last ∈ (recordSentValue state stateKey v nowMs).lastSent.get? k) :
    last ∈ state.lastSent.get? k := by
  have hdelete : ∀ k', last ∈ (state.lastSent.delete k').get? k → last ∈ state.lastSent.get? k := by
    intro k' hmem
    rw [OrderedMap.get?_delete] at hmem
    split_ifs at hmem
    · cases hmem
    · exact hmem
  rw [recordSentValue] at hlast
  dsimp only at hlast
  rw [OrderedMap.get?_set_of_ne _ h] at hlast
  split_ifs at hlast
  · exact hdelete _ hlast
  · split at hlast
    · exact hdelete _ hlast
    · exact hlast
  · exact hlast

end Record

/-! ## Rules that drop nothing -/

/-- A rule without an interval and without a positive deadband. -/
def PathThrottleRule.Idle (rule : PathThrottleRule) : Prop :=
  rule.minIntervalMs = none ∧ ∀ deadband ∈ rule.deadband, deadband ≤ 0

/-- A path whose values the throttle never drops. -/
def Unthrottled (throttleMap : List (String × PathThrottleRule)) (path : String) : Prop :=
  ∀ rule ∈ throttleMap.lookup path, rule.Idle

section Idle

variable {doubles : Doubles} {throttleMap : List (String × PathThrottleRule)} {nowMs : Time}

theorem withinDeadband_nonpos {a b : JsNumber} {deadband : ℚ} (h : deadband ≤ 0) :
    withinDeadband doubles a b deadband = false := by
  unfold withinDeadband
  split
  · split
    · next r _ => exact decide_eq_false fun hlt => (abs_nonneg r).not_gt (hlt.trans_le h)
    · rfl
  · rfl

theorem shouldDropValue_idle {v : DeltaValue} {rule : PathThrottleRule} (h : rule.Idle)
    (last? : Option LastSent) : shouldDropValue doubles v rule last? nowMs = false := by
  obtain ⟨hinterval, hdeadband⟩ := h
  cases last? with
  | none => rfl
  | some last =>
    rw [shouldDropValue, hinterval, Option.any_none, Bool.false_or]
    cases hd : rule.deadband with
    | none => rfl
    | some deadband =>
      have hzero := hdeadband deadband hd
      cases hv : numberOf v.value <;> cases hl : last.value <;>
        simp [withinDeadband_nonpos hzero]

variable (doubles nowMs)

theorem throttleValue_unthrottled (context sourceRef : Option String) {v : DeltaValue}
    (h : Unthrottled throttleMap v.path) (state : PathThrottleState) :
    (throttleValue doubles throttleMap context sourceRef nowMs state v).2 = some v := by
  rw [throttleValue]
  split
  · rfl
  · next rule hrule =>
    simp [shouldDropValue_idle (h rule hrule)]

theorem throttleUpdate_unthrottled (context : Option String) {update : DeltaUpdate}
    (h : ∀ v ∈ update.values, Unthrottled throttleMap v.path) (state : PathThrottleState) :
    (throttleUpdate doubles throttleMap context nowMs state update).2 = some update := by
  have hvalues := mapAccum_snd_of_forall (fun v hv s =>
    throttleValue_unthrottled doubles nowMs context update.sourceRef (h v hv) s) state
  rw [throttleUpdate, if_pos]
  rw [hvalues]
  simp

theorem throttleDelta_unthrottled {delta : Delta} (h : delta.OnPaths (Unthrottled throttleMap))
    (state : PathThrottleState) :
    (throttleDelta doubles throttleMap nowMs state delta).2 = some delta := by
  have hupdates := mapAccum_snd_of_forall (fun u hu s =>
    throttleUpdate_unthrottled doubles nowMs delta.context (h u hu) s) state
  rw [throttleDelta, if_neg]
  · rw [hupdates, reduceOption_map_some]
  · rw [hupdates, reduceOption_map_some]
    exact fun hboth => hboth.1 hboth.2

/-- **Nothing to throttle.** A batch whose values no rule can drop goes through as it is. -/
theorem throttleDeltaPayload_unthrottled {deltas : List Delta}
    (h : ∀ d ∈ deltas, d.OnPaths (Unthrottled throttleMap)) (hne : deltas ≠ [])
    (state : PathThrottleState) :
    (throttleDeltaPayload doubles throttleMap nowMs state deltas).2 = some deltas := by
  have hdeltas := mapAccum_snd_of_forall (fun d hd s =>
    throttleDelta_unthrottled doubles nowMs (h d hd) s) state
  rw [throttleDeltaPayload]
  split
  · rfl
  · rw [if_neg]
    · rw [hdeltas, reduceOption_map_some]
    · rw [hdeltas, reduceOption_map_some]
      exact hne

end Idle

end EdgeLink
