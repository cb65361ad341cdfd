import EdgeLink.Client.DeltaSender
import EdgeLink.Client.ProcessDelta
import EdgeLink.Codec.ValuesSnapshot
import EdgeLink.Server.Handlers

/-!
# What is sent of a snapshot

The way of a synthetic delta from the snapshot of the tree to the message that the server injects:
the producer, the outbound transforms without filter and throttle, the wire, and the sanitiser of
the server. A delta that is `Clean` goes through all of it.

* `outboundDelta_of_sendable`: the producer takes nothing out of a snapshot delta whose leaves are
  `Sendable`.
* `prepareDeltaPayload_plain`: without filter and throttle a batch is sanitised and rounded.
* `Delta.Clean.injected`: of a clean delta everything is injected.
-/

namespace EdgeLink

open JsValue

/-- A path that a server accepts, and that is not the plugin's own when that is left out. -/
def Leaf.Sendable (opts : ProducerOptions) (l : Leaf) : Prop :=
  isValidValuePath l.path ∧ (opts.skipOwnData → isOwnDataPath l.path = false)

instance (opts : ProducerOptions) (l : Leaf) : Decidable (l.Sendable opts) :=
  inferInstanceAs (Decidable (_ ∧ (_ → _)))

/-- Updates with values on valid paths, and no telemetry. -/
structure Delta.Clean (d : Delta) : Prop where
  updates : d.updates ≠ []
  telemetry : ∀ u ∈ d.updates, isClientTelemetry u = false
  values : ∀ u ∈ d.updates, u.values ≠ []
  paths : ∀ u ∈ d.updates, ∀ v ∈ u.values, isValidValuePath v.path

/-! ## The producer -/

section Producer

variable {d : Delta}

theorem Delta.Clean.sanitized (h : d.Clean) : sanitizeDeltaForSignalK d = some d := by
  have hupdates : d.updates.filterMap sanitizeUpdateForSignalK = d.updates := by
    refine filterMap_eq_self fun u hu => ?_
    have hvalues : u.values.filter (fun v => isValidValuePath v.path) = u.values :=
      List.filter_eq_self.2 fun v hv => h.paths u hu v hv
    simp only [sanitizeUpdateForSignalK, hvalues, h.values u hu, false_and, if_false]
  rw [sanitizeDeltaForSignalK, hupdates]
  split
  next hnil => exact absurd hnil h.updates
  next => rfl

theorem clean_of_sendable {opts : ProducerOptions} (h : d.Single)
    (hleaves : ∀ l ∈ d.leaves, l.Sendable opts)
    (htelemetry : ∀ u ∈ d.updates, isClientTelemetry u = false) : d.Clean := by
  obtain ⟨u, hu, hvalues, -⟩ := h
  refine ⟨by simp [hu], htelemetry, by simpa [hu] using hvalues, fun u' hu' v hv => ?_⟩
  have hleaf : (⟨d.context, v.path, v.value⟩ : Leaf) ∈ d.leaves :=
    List.mem_flatMap.2 ⟨u', hu', List.mem_map_of_mem hv⟩
  exact (hleaves _ hleaf).1

/-- The producer takes nothing out of a snapshot delta with sendable leaves. -/
theorem outboundDelta_of_sendable {opts : ProducerOptions} (h : d.Single)
    (hleaves : ∀ l ∈ d.leaves, l.Sendable opts)
    (htelemetry : ∀ u ∈ d.updates, isClientTelemetry u = false) :
    outboundDelta opts d = some d := by
  rw [outboundDelta, (clean_of_sendable h hleaves htelemetry).sanitized]
  dsimp only
  split_ifs with hskip
  · obtain ⟨u, hu, hvalues, hmeta⟩ := h
    have hkept : u.values.filter (fun v => !isOwnDataPath v.path) = u.values := by
      refine List.filter_eq_self.2 fun v hv => ?_
      have hleaf : (⟨d.context, v.path, v.value⟩ : Leaf) ∈ d.leaves :=
        List.mem_flatMap.2 ⟨u, by simp [hu], List.mem_map_of_mem hv⟩
      simp [(hleaves _ hleaf).2 hskip]
    have hstrip : stripOwnDataFromUpdate u = some u := by
      simp only [stripOwnDataFromUpdate, hkept, hmeta, hvalues, Option.map_none, false_and,
        if_false, and_self, if_true]
    have hupdates : d.updates.filterMap stripOwnDataFromUpdate = d.updates := by simp [hu, hstrip]
    rw [stripOwnDataFromDelta, hupdates, hu]
    dsimp only
    rw [← hu]
  · rfl

end Producer

/-! ## The outbound transforms -/

section Prepare

variable (doubles : Doubles) (options : SendOptions)

/-- A delta with the configured precision. -/
def Delta.quantized (d : Delta) : Delta :=
  if options.pathPrecision = [] then d else quantizeDelta doubles options.pathPrecision d

/-- A leaf with the configured precision. -/
def Leaf.quantized (l : Leaf) : Leaf :=
  if options.pathPrecision = [] then l
  else { l with value := quantizeValue doubles options.pathPrecision l.path l.value }

variable {doubles options} {d : Delta}

theorem Delta.Clean.map (h : d.Clean) {f : DeltaUpdate → DeltaUpdate}
    (hsource : ∀ u, (f u).source = u.source)
    (hpaths : ∀ u, (f u).values.map DeltaValue.path = u.values.map DeltaValue.path) :
    ({ d with updates := d.updates.map f } : Delta).Clean where
  updates := by simpa using h.updates
  telemetry := by
    simp only [List.forall_mem_map, isClientTelemetry, hsource]
    exact h.telemetry
  values := by
    simp only [List.forall_mem_map]
    intro u hu hnil
    have hempty : u.values.map DeltaValue.path = [] := by rw [← hpaths, hnil, List.map_nil]
    exact h.values u hu (List.map_eq_nil_iff.1 hempty)
  paths := by
    simp only [List.forall_mem_map]
    intro u hu v hv
    have hpath : v.path ∈ u.values.map DeltaValue.path := hpaths u ▸ List.mem_map_of_mem hv
    obtain ⟨v', hv', he⟩ := List.mem_map.1 hpath
    rw [← he]
    exact h.paths u hu v' hv'

theorem Delta.Clean.quantized (h : d.Clean) : (d.quantized doubles options).Clean := by
  unfold Delta.quantized
  split_ifs
  · exact h
  · exact h.map (fun _ => rfl) fun u => by simp [Function.comp_def]

theorem Delta.Clean.wire (h : d.Clean) (m : Bool) : (d.wire m).Clean :=
  h.map (fun _ => rfl) fun u => by simp [DeltaUpdate.wire, DeltaValue.wire, Function.comp_def]

theorem quantizeDeltaPayload_eq (deltas : List Delta) :
    quantizeDeltaPayload doubles options.pathPrecision deltas =
      deltas.map (·.quantized doubles options) := by
  unfold quantizeDeltaPayload Delta.quantized
  split_ifs
  · exact (List.map_id' _).symm
  · rfl

/-- Without filter and throttle, a batch of which something is left is sanitised and rounded. -/
theorem prepareDeltaPayload_plain (hfilter : options.pathFilter = {})
    (hthrottle : options.pathThrottle = []) (s : EncoderState) (nowMs : Time)
    {deltas : List Delta} (hne : deltas.filterMap sanitizeDeltaForSignalK ≠ []) :
    let plain := (deltas.filterMap sanitizeDeltaForSignalK).map (·.quantized doubles options)
    prepareDeltaPayload doubles options s nowMs deltas =
      if options.useValueDedup then
        (⟨s.throttleState, (dedupDeltaArray s.dedupState plain).1⟩,
          some (dedupDeltaArray s.dedupState plain).2)
      else (s, some plain) := by
  intro plain
  have hsanitize : sanitizeDeltaPayloadForSignalK deltas =
      some (deltas.filterMap sanitizeDeltaForSignalK) := by
    rw [sanitizeDeltaPayloadForSignalK]
    split
    next hnil => exact absurd hnil hne
    next => rfl
  have hfiltered : (sanitizeDeltaPayloadForSignalK deltas).bind
      (filterDeltaPayload options.pathFilter) =
      some (deltas.filterMap sanitizeDeltaForSignalK) := by
    rw [hsanitize, Option.bind_some, filterDeltaPayload, hfilter]
    rfl
  have hthrottled : throttleDeltaPayload doubles options.pathThrottle nowMs s.throttleState plain =
      (s.throttleState, some plain) := by
    rw [throttleDeltaPayload, if_pos hthrottle]
  exact prepareDeltaPayload_some hfiltered (quantizeDeltaPayload_eq _) hthrottled

theorem prepareDeltaPayload_nothing (s : EncoderState) (nowMs : Time) {deltas : List Delta}
    (hnil : deltas.filterMap sanitizeDeltaForSignalK = []) :
    prepareDeltaPayload doubles options s nowMs deltas = (s, none) := by
  refine prepareDeltaPayload_none ?_
  rw [sanitizeDeltaPayloadForSignalK, hnil]
  rfl

end Prepare

/-! ## The server -/

/-- Everything is injected of a clean delta. -/
theorem Delta.Clean.injected {d : Delta} (h : d.Clean) :
    (sanitizeDeltaForSignalK d).bind withoutTelemetry = some d := by
  have hkept : d.updates.filter (fun u => !isClientTelemetry u) = d.updates :=
    List.filter_eq_self.2 fun u hu => by simp [h.telemetry u hu]
  rw [h.sanitized, Option.bind_some, withoutTelemetry]
  simp only [hkept]
  exact if_neg h.updates

end EdgeLink
