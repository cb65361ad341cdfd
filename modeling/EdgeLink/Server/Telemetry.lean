import EdgeLink.Codec.PathRules
import EdgeLink.Foundations.Clamp
import EdgeLink.Foundations.Lease
import EdgeLink.Server.DataHandler
import EdgeLink.Server.SourceRegistry

/-!
# Telemetry of the clients

`reliable-server/telemetry.ts`: what a server takes over of the link measurements that its clients
report. One session at a time may report.

* `TELEMETRY_APPLIERS`: the paths, what is accepted for each, and where it is kept.
* `ingestRemoteTelemetry_owner`: the owner of the slot is that of the model of the data handler.
* `telemetry_lease`: whose reports the published figures are made of, over any run.
-/

namespace EdgeLink

namespace Telemetry

def CLIENT_TELEMETRY_PATHS : List String :=
  ["networking.edgeLink.rtt", "networking.edgeLink.jitter", "networking.edgeLink.packetLoss",
    "networking.edgeLink.retransmissions", "networking.edgeLink.queueDepth",
    "networking.edgeLink.retransmitRate", "networking.edgeLink.activeLink"]

def TELEMETRY_PREFIX : String := "networking.edgeLink."

/-- What the clients have reported. -/
structure RemoteNetworkQuality where
  rtt : Option ℚ
  jitter : Option ℚ
  packetLoss : ℚ
  retransmissions : ℚ
  queueDepth : ℚ
  retransmitRate : ℚ
  activeLink : String
  lastUpdate : Time
  deriving DecidableEq

def buildRemoteNetworkQuality : RemoteNetworkQuality where
  rtt := none
  jitter := none
  packetLoss := 0
  retransmissions := 0
  queueDepth := 0
  retransmitRate := 0
  activeLink := "primary"
  lastUpdate := 0

/-- The measurements of a connection. -/
structure NetworkMetrics where
  rtt : ℚ
  jitter : ℚ
  retransmissions : ℚ
  queueDepth : ℚ
  remoteNetworkQuality : RemoteNetworkQuality
  deriving DecidableEq

def createMetrics : NetworkMetrics where
  rtt := 0
  jitter := 0
  retransmissions := 0
  queueDepth := 0
  remoteNetworkQuality := buildRemoteNetworkQuality

/-! ## Accepted values -/

section Values

variable (platform : RegistryPlatform)

def toFiniteNumber (value : JsValue) : Option ℚ :=
  match platform.number value with
  | .finite q => some q
  | _ => none

/-- A finite number that is not negative. -/
def nonNegative (value : JsValue) : Option ℚ :=
  (toFiniteNumber platform value).filter (0 ≤ ·)

/-- A ratio, cut to the range of ratios. -/
def ratio (value : JsValue) : Option ℚ :=
  (toFiniteNumber platform value).map fun q => max 0 (min 1 q)

/-- A count, rounded. -/
def count (value : JsValue) : Option ℚ :=
  (nonNegative platform value).map fun q => (⌊q + 1 / 2⌋ : ℚ)

def nonEmptyText : JsValue → Option String
  | .str s => if s.toList = [] then none else some s
  | _ => none

/-- What an accepted value changes. -/
abbrev Applier := JsValue → Option (NetworkMetrics → NetworkMetrics)

def applyRtt : Applier := fun value => (nonNegative platform value).map fun rtt m =>
  { m with rtt := rtt, remoteNetworkQuality := { m.remoteNetworkQuality with rtt := some rtt } }

def applyJitter : Applier := fun value => (nonNegative platform value).map fun jitter m =>
  { m with
    jitter := jitter
    remoteNetworkQuality := { m.remoteNetworkQuality with jitter := some jitter } }

def applyPacketLoss : Applier := fun value => (ratio platform value).map fun loss m =>
  { m with remoteNetworkQuality := { m.remoteNetworkQuality with packetLoss := loss } }

def applyRetransmissions : Applier := fun value => (count platform value).map fun rounded m =>
  { m with
    retransmissions := rounded
    remoteNetworkQuality := { m.remoteNetworkQuality with retransmissions := rounded } }

def applyQueueDepth : Applier := fun value => (count platform value).map fun rounded m =>
  { m with
    queueDepth := rounded
    remoteNetworkQuality := { m.remoteNetworkQuality with queueDepth := rounded } }

def applyRetransmitRate : Applier := fun value => (ratio platform value).map fun rate m =>
  { m with remoteNetworkQuality := { m.remoteNetworkQuality with retransmitRate := rate } }

def applyActiveLink : Applier := fun value => (nonEmptyText value).map fun link m =>
  { m with remoteNetworkQuality := { m.remoteNetworkQuality with activeLink := link } }

def TELEMETRY_APPLIERS : List (String × Applier) :=
  [("networking.edgeLink.rtt", applyRtt platform),
    ("networking.edgeLink.jitter", applyJitter platform),
    ("networking.edgeLink.packetLoss", applyPacketLoss platform),
    ("networking.edgeLink.retransmissions", applyRetransmissions platform),
    ("networking.edgeLink.queueDepth", applyQueueDepth platform),
    ("networking.edgeLink.retransmitRate", applyRetransmitRate platform),
    ("networking.edgeLink.activeLink", applyActiveLink)]

/-- The path without the segment of an instance, if a measurement has that path. -/
def canonicalTelemetryPath (path : String) : Option String :=
  if path ∈ CLIENT_TELEMETRY_PATHS then some path
  else if TELEMETRY_PREFIX.toList.isPrefixOf path.toList then
    match (path.toList.drop TELEMETRY_PREFIX.toList.length).dropWhile (· ≠ '.') with
    | [] => none
    | _ :: rest =>
      let unscoped := TELEMETRY_PREFIX ++ String.ofList rest
      if unscoped ∈ CLIENT_TELEMETRY_PATHS then some unscoped else none
  else none

/-- What a value changes, if its path is one of a measurement and it is accepted. -/
def telemetryValue (entry : DeltaValue) : Option (NetworkMetrics → NetworkMetrics) :=
  (canonicalTelemetryPath entry.path).bind fun path =>
    ((TELEMETRY_APPLIERS platform).lookup path).bind fun applier => applier entry.value

/-- Apply the values of an update, and say whether one of them has been accepted. -/
def processTelemetryUpdateValues (metrics : NetworkMetrics) (values : List DeltaValue) :
    NetworkMetrics × Bool :=
  values.foldl (fun r entry =>
    match telemetryValue platform entry with
    | some apply => (apply r.1, true)
    | none => r) (metrics, false)

end Values

/-! ## The slot -/

structure TelemetryState where
  telemetryOwnerSessionKey : Option Peer
  telemetryOwnerLastSeen : Time
  metrics : NetworkMetrics

def createTelemetryState : TelemetryState where
  telemetryOwnerSessionKey := none
  telemetryOwnerLastSeen := 0
  metrics := createMetrics

/-- A session whose peer has said who it is. -/
def peerIdentified (session : ClientSession) : Bool :=
  session.clientId.isSome || session.sourceClientInstanceId.isSome

/-- Whether another session has the slot. -/
def heldByOther (s : TelemetryState) (now : Time) (key : Peer) : Prop :=
  s.telemetryOwnerSessionKey.isSome = true ∧
    (0 < s.telemetryOwnerLastSeen ∧
      now - s.telemetryOwnerLastSeen ≤ REMOTE_TELEMETRY_TTL_MS) ∧
    s.telemetryOwnerSessionKey ≠ some key

instance (s : TelemetryState) (now : Time) (key : Peer) : Decidable (heldByOther s now key) :=
  inferInstanceAs (Decidable (_ ∧ _ ∧ _))

section Ingest

variable (platform : RegistryPlatform)

/-- Take an update over: the state, whether a value has been accepted, and what is passed on. -/
def consumeTelemetryUpdate (now : Time) (session : Option ClientSession) (s : TelemetryState)
    (update : DeltaUpdate) : TelemetryState × Bool × Option DeltaUpdate :=
  if isClientTelemetry update = false then (s, false, some update)
  else
    match session.filter peerIdentified with
    | none => (s, false, none)
    | some session =>
      if heldByOther s now session.key then (s, false, none)
      else
        let result := processTelemetryUpdateValues platform s.metrics update.values
        (⟨some session.key, now, result.1⟩, result.2, none)

def setLastUpdate (now : Time) (m : NetworkMetrics) : NetworkMetrics :=
  { m with remoteNetworkQuality := { m.remoteNetworkQuality with lastUpdate := now } }

def ingestRemoteTelemetry (now : Time) (session : Option ClientSession) (s : TelemetryState)
    (delta : Delta) : TelemetryState × Delta :=
  let r := mapAccum (consumeTelemetryUpdate platform now session) s delta.updates
  let changed := r.2.any fun out => out.1
  ({ r.1 with metrics := if changed then setLastUpdate now r.1.metrics else r.1.metrics },
    { delta with updates := r.2.filterMap fun out => out.2 })

/-! ## One message -/

/-- The key of the session that may report. -/
def admittedKey (s : TelemetryState) (now : Time) (session : Option ClientSession) : Option Peer :=
  (session.filter peerIdentified).bind fun session =>
    if heldByOther s now session.key then none else some session.key

theorem consume_of_not_telemetry {update : DeltaUpdate} (h : isClientTelemetry update = false)
    (now : Time) (session : Option ClientSession) (s : TelemetryState) :
    consumeTelemetryUpdate platform now session s update = (s, false, some update) := by
  rw [consumeTelemetryUpdate, if_pos h]

theorem consume_of_telemetry {update : DeltaUpdate} (h : isClientTelemetry update = true)
    (now : Time) (session : Option ClientSession) (s : TelemetryState) :
    consumeTelemetryUpdate platform now session s update =
      match admittedKey s now session with
      | none => (s, false, none)
      | some key =>
        (⟨some key, now, (processTelemetryUpdateValues platform s.metrics update.values).1⟩,
          (processTelemetryUpdateValues platform s.metrics update.values).2, none) := by
  rw [consumeTelemetryUpdate, if_neg (by simp [h]), admittedKey]
  cases session.filter peerIdentified with
  | none => rfl
  | some session => by_cases hheld : heldByOther s now session.key <;> simp [hheld]

/-- Who has reported may go on. -/
theorem admittedKey_self {s : TelemetryState} {now : Time} {session : Option ClientSession}
    {key : Peer} (h : admittedKey s now session = some key) (m : NetworkMetrics) :
    admittedKey ⟨some key, now, m⟩ now session = some key := by
  rw [admittedKey] at h ⊢
  cases hfilter : session.filter peerIdentified with
  | none => simp [hfilter] at h
  | some session =>
    rw [hfilter, Option.bind_some] at h
    rw [Option.bind_some]
    split_ifs at h
    obtain rfl := Option.some.inj h
    exact if_neg fun hheld => hheld.2.2 rfl

/-- What the values of an update that is taken over change. -/
def applyValues (now : Time) (m : NetworkMetrics) (values : List DeltaValue) : NetworkMetrics :=
  let result := processTelemetryUpdateValues platform m values
  if result.2 then setLastUpdate now result.1 else result.1

/-- What the values of several updates change, the time of the last change left out. -/
def processAll : NetworkMetrics → List (List DeltaValue) → NetworkMetrics × Bool
  | m, [] => (m, false)
  | m, values :: rest =>
    let result := processTelemetryUpdateValues platform m values
    ((processAll result.1 rest).1, result.2 || (processAll result.1 rest).2)

/-- The values that the telemetry of a message carries. -/
def reportedValues (updates : List DeltaUpdate) : List (List DeltaValue) :=
  (updates.filter isClientTelemetry).map (·.values)

/-- Telemetry is never passed on, and everything else is. -/
theorem consume_forward (now : Time) (session : Option ClientSession) (s : TelemetryState)
    (update : DeltaUpdate) : (consumeTelemetryUpdate platform now session s update).2.2 =
      if isClientTelemetry update = false then some update else none := by
  cases h : isClientTelemetry update with
  | false => rw [consume_of_not_telemetry platform h, if_pos rfl]
  | true =>
    rw [consume_of_telemetry platform h]
    cases admittedKey s now session <;> rfl

theorem filterMap_forward (now : Time) (session : Option ClientSession) (s : TelemetryState)
    (updates : List DeltaUpdate) :
    ((mapAccum (consumeTelemetryUpdate platform now session) s updates).2.filterMap fun out =>
      out.2) = updates.filter fun u => !isClientTelemetry u := by
  induction updates generalizing s with
  | nil => rfl
  | cons update updates ih =>
    rw [mapAccum_cons]
    simp only [List.filterMap_cons, consume_forward, ih, List.filter_cons]
    cases isClientTelemetry update <;> simp

/-- A session that may not report changes nothing. -/
theorem mapAccum_refused {now : Time} {session : Option ClientSession} {s : TelemetryState}
    (h : admittedKey s now session = none) (updates : List DeltaUpdate) :
    (mapAccum (consumeTelemetryUpdate platform now session) s updates).1 = s ∧
      ((mapAccum (consumeTelemetryUpdate platform now session) s updates).2.any fun out => out.1) =
        false := by
  induction updates with
  | nil => exact ⟨rfl, rfl⟩
  | cons update updates ih =>
    have hstep : (consumeTelemetryUpdate platform now session s update).1 = s ∧
        (consumeTelemetryUpdate platform now session s update).2.1 = false := by
      cases ht : isClientTelemetry update with
      | false => simp [consume_of_not_telemetry platform ht]
      | true => simp [consume_of_telemetry platform ht, h]
    rw [mapAccum_cons]
    simp only [hstep.1, hstep.2, List.any_cons, Bool.false_or]
    exact ih

/-- A session that may report has all its values applied, and has the slot. -/
theorem mapAccum_admitted {now : Time} {session : Option ClientSession} {s : TelemetryState}
    {key : Peer} (h : admittedKey s now session = some key) (updates : List DeltaUpdate) :
    (mapAccum (consumeTelemetryUpdate platform now session) s updates).1 =
        (if reportedValues updates = [] then s
          else ⟨some key, now, (processAll platform s.metrics (reportedValues updates)).1⟩) ∧
      ((mapAccum (consumeTelemetryUpdate platform now session) s updates).2.any fun out => out.1) =
        (processAll platform s.metrics (reportedValues updates)).2 := by
  induction updates generalizing s with
  | nil => exact ⟨rfl, rfl⟩
  | cons update updates ih =>
    rw [mapAccum_cons]
    cases ht : isClientTelemetry update with
    | false =>
      have hvalues : reportedValues (update :: updates) = reportedValues updates := by
        simp [reportedValues, ht]
      simp only [consume_of_not_telemetry platform ht, hvalues, List.any_cons, Bool.false_or]
      exact ih h
    | true =>
      have hvalues : reportedValues (update :: updates) =
          update.values :: reportedValues updates := by
        simp [reportedValues, ht]
      obtain ⟨hstate, hchanged⟩ := ih (admittedKey_self h
        (processTelemetryUpdateValues platform s.metrics update.values).1)
      simp only [consume_of_telemetry platform ht, h, hvalues, List.any_cons, hstate, hchanged,
        processAll]
      refine ⟨?_, trivial⟩
      by_cases hnone : reportedValues updates = [] <;> simp [hnone, processAll]

end Ingest

/-! ## Accepted values and the time of the last one -/

section Accepted

variable (platform : RegistryPlatform)

/-- What an accepted value on a path changes. -/
inductive Accepted : String → (NetworkMetrics → NetworkMetrics) → Prop
  | rtt (q : ℚ) (h : 0 ≤ q) : Accepted "networking.edgeLink.rtt" fun m =>
    { m with rtt := q, remoteNetworkQuality := { m.remoteNetworkQuality with rtt := some q } }
  | jitter (q : ℚ) (h : 0 ≤ q) : Accepted "networking.edgeLink.jitter" fun m =>
    { m with
      jitter := q
      remoteNetworkQuality := { m.remoteNetworkQuality with jitter := some q } }
  | packetLoss (q : ℚ) (h : 0 ≤ q ∧ q ≤ 1) : Accepted "networking.edgeLink.packetLoss" fun m =>
    { m with remoteNetworkQuality := { m.remoteNetworkQuality with packetLoss := q } }
  | retransmissions (n : ℕ) : Accepted "networking.edgeLink.retransmissions" fun m =>
    { m with
      retransmissions := n
      remoteNetworkQuality := { m.remoteNetworkQuality with retransmissions := n } }
  | queueDepth (n : ℕ) : Accepted "networking.edgeLink.queueDepth" fun m =>
    { m with
      queueDepth := n
      remoteNetworkQuality := { m.remoteNetworkQuality with queueDepth := n } }
  | retransmitRate (q : ℚ) (h : 0 ≤ q ∧ q ≤ 1) :
    Accepted "networking.edgeLink.retransmitRate" fun m =>
      { m with remoteNetworkQuality := { m.remoteNetworkQuality with retransmitRate := q } }
  | activeLink (s : String) (h : s ≠ "") : Accepted "networking.edgeLink.activeLink" fun m =>
    { m with remoteNetworkQuality := { m.remoteNetworkQuality with activeLink := s } }

theorem nonNegative_spec {value : JsValue} {q : ℚ} (h : nonNegative platform value = some q) :
    0 ≤ q := by
  simpa using (Option.filter_eq_some_iff.1 h).2

theorem ratio_spec {value : JsValue} {q : ℚ} (h : ratio platform value = some q) :
    0 ≤ q ∧ q ≤ 1 := by
  obtain ⟨r, -, rfl⟩ := Option.map_eq_some_iff.1 h
  exact ⟨le_max_left _ _, max_le zero_le_one (min_le_left _ _)⟩

theorem count_spec {value : JsValue} {q : ℚ} (h : count platform value = some q) :
    ∃ n : ℕ, q = n := by
  obtain ⟨r, hr, rfl⟩ := Option.map_eq_some_iff.1 h
  have hpos := nonNegative_spec platform hr
  have hfloor : 0 ≤ ⌊r + 1 / 2⌋ := Int.floor_nonneg.2 (by linarith)
  exact ⟨⌊r + 1 / 2⌋.toNat, by rw [← Int.cast_natCast, Int.toNat_of_nonneg hfloor]⟩

theorem nonEmptyText_spec {value : JsValue} {s : String} (h : nonEmptyText value = some s) :
    s ≠ "" := by
  cases value with
  | str t =>
    rw [nonEmptyText] at h
    split_ifs at h with hempty
    obtain rfl := Option.some.inj h
    exact fun h => hempty (by rw [h]; rfl)
  | _ => cases h

/-- Each applier changes what its path names. -/
theorem accepted_of_mem {a : String × Applier} (ha : a ∈ TELEMETRY_APPLIERS platform)
    {value : JsValue} {apply : NetworkMetrics → NetworkMetrics} (h : a.2 value = some apply) :
    Accepted a.1 apply := by
  simp only [TELEMETRY_APPLIERS, List.mem_cons, List.not_mem_nil, or_false] at ha
  rcases ha with rfl | rfl | rfl | rfl | rfl | rfl | rfl
  · obtain ⟨q, hq, rfl⟩ := Option.map_eq_some_iff.1 h
    exact .rtt q (nonNegative_spec platform hq)
  · obtain ⟨q, hq, rfl⟩ := Option.map_eq_some_iff.1 h
    exact .jitter q (nonNegative_spec platform hq)
  · obtain ⟨q, hq, rfl⟩ := Option.map_eq_some_iff.1 h
    exact .packetLoss q (ratio_spec platform hq)
  · obtain ⟨q, hq, rfl⟩ := Option.map_eq_some_iff.1 h
    obtain ⟨n, rfl⟩ := count_spec platform hq
    exact .retransmissions n
  · obtain ⟨q, hq, rfl⟩ := Option.map_eq_some_iff.1 h
    obtain ⟨n, rfl⟩ := count_spec platform hq
    exact .queueDepth n
  · obtain ⟨q, hq, rfl⟩ := Option.map_eq_some_iff.1 h
    exact .retransmitRate q (ratio_spec platform hq)
  · obtain ⟨s, hs, rfl⟩ := Option.map_eq_some_iff.1 h
    exact .activeLink s (nonEmptyText_spec hs)

theorem accepted_of_telemetryValue {entry : DeltaValue} {apply : NetworkMetrics → NetworkMetrics}
    (h : telemetryValue platform entry = some apply) :
    ∃ path, canonicalTelemetryPath entry.path = some path ∧ Accepted path apply := by
  rw [telemetryValue] at h
  obtain ⟨path, hpath, h⟩ := Option.bind_eq_some_iff.1 h
  obtain ⟨applier, hlookup, h⟩ := Option.bind_eq_some_iff.1 h
  exact ⟨path, hpath, accepted_of_mem platform (mem_of_lookup hlookup) h⟩

/-- No value depends on the time of the last change or sets it. -/
theorem Accepted.setLastUpdate {path : String} {apply : NetworkMetrics → NetworkMetrics}
    (h : Accepted path apply) (now : Time) (m : NetworkMetrics) :
    apply (Telemetry.setLastUpdate now m) = Telemetry.setLastUpdate now (apply m) := by
  cases h <;> rfl

theorem Accepted.lastUpdate {path : String} {apply : NetworkMetrics → NetworkMetrics}
    (h : Accepted path apply) (m : NetworkMetrics) :
    (apply m).remoteNetworkQuality.lastUpdate = m.remoteNetworkQuality.lastUpdate := by
  cases h <;> rfl

/-- A figure that is unknown until a number that is not negative has been accepted for its path. -/
structure Measured (path : String) (known : NetworkMetrics → Bool) : Prop where
  unknown : known createMetrics = false
  setLastUpdate : ∀ now m, known (Telemetry.setLastUpdate now m) = known m
  applier : ∀ value, (((TELEMETRY_APPLIERS platform).lookup path).bind (· value)).isSome =
    (nonNegative platform value).isSome
  accepted : ∀ {path' apply}, Accepted path' apply → ∀ m,
    known (apply m) = true ↔ known m = true ∨ path' = path

theorem measured_rtt :
    Measured platform "networking.edgeLink.rtt" fun m => m.remoteNetworkQuality.rtt.isSome where
  unknown := rfl
  setLastUpdate _ _ := rfl
  applier value := Option.isSome_map
  accepted h m := by cases h <;> simp

theorem measured_jitter :
    Measured platform "networking.edgeLink.jitter" fun m =>
      m.remoteNetworkQuality.jitter.isSome where
  unknown := rfl
  setLastUpdate _ _ := rfl
  applier value := Option.isSome_map
  accepted h m := by cases h <;> simp

/-- Figures that a dashboard can show. -/
structure WellFormed (m : NetworkMetrics) : Prop where
  rtt : ∀ q ∈ m.remoteNetworkQuality.rtt, 0 ≤ q
  jitter : ∀ q ∈ m.remoteNetworkQuality.jitter, 0 ≤ q
  packetLoss : 0 ≤ m.remoteNetworkQuality.packetLoss ∧ m.remoteNetworkQuality.packetLoss ≤ 1
  retransmissions : ∃ n : ℕ, m.remoteNetworkQuality.retransmissions = n
  queueDepth : ∃ n : ℕ, m.remoteNetworkQuality.queueDepth = n
  retransmitRate : 0 ≤ m.remoteNetworkQuality.retransmitRate ∧
    m.remoteNetworkQuality.retransmitRate ≤ 1
  activeLink : m.remoteNetworkQuality.activeLink ≠ ""
  /-- the connection's own figures are the same -/
  mirrored : m.rtt = m.remoteNetworkQuality.rtt.getD 0 ∧
    m.jitter = m.remoteNetworkQuality.jitter.getD 0 ∧
    m.retransmissions = m.remoteNetworkQuality.retransmissions ∧
    m.queueDepth = m.remoteNetworkQuality.queueDepth

theorem wellFormed_createMetrics : WellFormed createMetrics where
  rtt := by simp [createMetrics, buildRemoteNetworkQuality]
  jitter := by simp [createMetrics, buildRemoteNetworkQuality]
  packetLoss := ⟨le_rfl, zero_le_one⟩
  retransmissions := ⟨0, rfl⟩
  queueDepth := ⟨0, rfl⟩
  retransmitRate := ⟨le_rfl, zero_le_one⟩
  activeLink := by decide
  mirrored := ⟨rfl, rfl, rfl, rfl⟩

theorem Accepted.wellFormed {path : String} {apply : NetworkMetrics → NetworkMetrics}
    (h : Accepted path apply) {m : NetworkMetrics} (hm : WellFormed m) : WellFormed (apply m) := by
  obtain ⟨hrtt, hjitter, hloss, hretransmissions, hqueue, hrate, hlink, hmrtt, hmjitter, hmre,
    hmq⟩ := hm
  cases h with
  | rtt q hq =>
    exact ⟨by simpa using hq, hjitter, hloss, hretransmissions, hqueue, hrate, hlink, rfl, hmjitter,
      hmre, hmq⟩
  | jitter q hq =>
    exact ⟨hrtt, by simpa using hq, hloss, hretransmissions, hqueue, hrate, hlink, hmrtt, rfl, hmre,
      hmq⟩
  | packetLoss q hq =>
    exact ⟨hrtt, hjitter, hq, hretransmissions, hqueue, hrate, hlink, hmrtt, hmjitter, hmre, hmq⟩
  | retransmissions n =>
    exact ⟨hrtt, hjitter, hloss, ⟨n, rfl⟩, hqueue, hrate, hlink, hmrtt, hmjitter, rfl, hmq⟩
  | queueDepth n =>
    exact ⟨hrtt, hjitter, hloss, hretransmissions, ⟨n, rfl⟩, hrate, hlink, hmrtt, hmjitter, hmre,
      rfl⟩
  | retransmitRate q hq =>
    exact ⟨hrtt, hjitter, hloss, hretransmissions, hqueue, hq, hlink, hmrtt, hmjitter, hmre, hmq⟩
  | activeLink s hs =>
    exact ⟨hrtt, hjitter, hloss, hretransmissions, hqueue, hrate, hs, hmrtt, hmjitter, hmre, hmq⟩

theorem WellFormed.setLastUpdate {m : NetworkMetrics} (h : WellFormed m) (now : Time) :
    WellFormed (Telemetry.setLastUpdate now m) := by
  obtain ⟨hrtt, hjitter, hloss, hretransmissions, hqueue, hrate, hlink, hmirrored⟩ := h
  exact ⟨hrtt, hjitter, hloss, hretransmissions, hqueue, hrate, hlink, hmirrored⟩

/-- Whether an update has a value that is accepted. -/
def accepts (values : List DeltaValue) : Bool :=
  values.any fun entry => (telemetryValue platform entry).isSome

/-- The time of the last change does not matter to an update. -/
theorem process_setLastUpdate (now : Time) (m : NetworkMetrics) (values : List DeltaValue) :
    processTelemetryUpdateValues platform (setLastUpdate now m) values =
      (setLastUpdate now (processTelemetryUpdateValues platform m values).1,
        (processTelemetryUpdateValues platform m values).2) := by
  simp only [processTelemetryUpdateValues]
  generalize false = b
  induction values generalizing m b with
  | nil => rfl
  | cons entry values ih =>
    rw [List.foldl_cons, List.foldl_cons]
    cases happly : telemetryValue platform entry with
    | none => exact ih m b
    | some apply =>
      obtain ⟨path, -, haccepted⟩ := accepted_of_telemetryValue platform happly
      have hcomm := haccepted.setLastUpdate now m
      simp only [hcomm]
      exact ih (apply m) true

/-- What the accepted values of an update keep, the update keeps. -/
theorem process_invariant {P : NetworkMetrics → Prop}
    (h : ∀ path apply m, Accepted path apply → P m → P (apply m)) {m : NetworkMetrics} (hm : P m)
    (values : List DeltaValue) : P (processTelemetryUpdateValues platform m values).1 := by
  rw [processTelemetryUpdateValues]
  generalize false = b
  induction values generalizing m b with
  | nil => exact hm
  | cons entry values ih =>
    rw [List.foldl_cons]
    cases happly : telemetryValue platform entry with
    | none => exact ih hm b
    | some apply =>
      obtain ⟨path, -, haccepted⟩ := accepted_of_telemetryValue platform happly
      exact ih (h path apply m haccepted hm) true

theorem process_accepts (m : NetworkMetrics) (values : List DeltaValue) :
    (processTelemetryUpdateValues platform m values).2 = accepts platform values := by
  have hflag : ∀ b, (values.foldl (fun r entry =>
      match telemetryValue platform entry with
      | some apply => (apply r.1, true)
      | none => r) (m, b)).2 = (b || accepts platform values) := by
    induction values generalizing m with
    | nil => simp [accepts]
    | cons entry values ih =>
      intro b
      rw [List.foldl_cons]
      cases happly : telemetryValue platform entry with
      | none => simpa [accepts, happly] using ih m b
      | some apply => simpa [accepts, happly] using ih (apply m) true
  simpa [processTelemetryUpdateValues] using hflag false

/-- Whether a value is one for `path`, and a number that is not negative. -/
def measures (path : String) (entry : DeltaValue) : Bool :=
  canonicalTelemetryPath entry.path = some path && (nonNegative platform entry.value).isSome

variable {platform} in
theorem Measured.measures_iff {path : String} {known : NetworkMetrics → Bool}
    (h : Measured platform path known) (entry : DeltaValue) :
    measures platform path entry = true ↔ ∃ apply, telemetryValue platform entry = some apply ∧
      canonicalTelemetryPath entry.path = some path := by
  rw [measures, Bool.and_eq_true, decide_eq_true_iff, ← h.applier, Option.isSome_iff_exists,
    telemetryValue]
  constructor
  · rintro ⟨hpath, apply, happly⟩
    exact ⟨apply, by rw [hpath, Option.bind_some, happly], hpath⟩
  · rintro ⟨apply, happly, hpath⟩
    rw [hpath, Option.bind_some] at happly
    exact ⟨hpath, apply, happly⟩

variable {platform} in
theorem Measured.process {path : String} {known : NetworkMetrics → Bool}
    (h : Measured platform path known) (m : NetworkMetrics) (values : List DeltaValue) :
    known (processTelemetryUpdateValues platform m values).1 = true ↔
      known m = true ∨ values.any (measures platform path) = true := by
  rw [processTelemetryUpdateValues]
  generalize false = b
  induction values generalizing m b with
  | nil => simp
  | cons entry values ih =>
    rw [List.foldl_cons, List.any_cons, Bool.or_eq_true, h.measures_iff]
    cases happly : telemetryValue platform entry with
    | none => simpa using ih m b
    | some apply =>
      obtain ⟨path', hpath, haccepted⟩ := accepted_of_telemetryValue platform happly
      refine (ih (apply m) true).trans ?_
      rw [h.accepted haccepted]
      simp [hpath, or_assoc]

/-! ## The updates of one message -/

theorem setLastUpdate_setLastUpdate (now now' : Time) (m : NetworkMetrics) :
    setLastUpdate now (setLastUpdate now' m) = setLastUpdate now m := rfl

theorem foldl_applyValues_set (now : Time) (m : NetworkMetrics)
    (updates : List (List DeltaValue)) :
    updates.foldl (applyValues platform now) (setLastUpdate now m) =
      setLastUpdate now (processAll platform m updates).1 := by
  induction updates generalizing m with
  | nil => rfl
  | cons values updates ih =>
    rw [List.foldl_cons, applyValues, process_setLastUpdate, processAll]
    simp only [setLastUpdate_setLastUpdate, ite_self]
    exact ih _

/-- Several updates at one time: the time is that of the message if one of them is accepted. -/
theorem foldl_applyValues (now : Time) (m : NetworkMetrics) (updates : List (List DeltaValue)) :
    updates.foldl (applyValues platform now) m =
      if (processAll platform m updates).2 then setLastUpdate now (processAll platform m updates).1
      else (processAll platform m updates).1 := by
  induction updates generalizing m with
  | nil => rfl
  | cons values updates ih =>
    rw [List.foldl_cons, applyValues, processAll]
    cases hchanged : (processTelemetryUpdateValues platform m values).2 with
    | true =>
      simp only [if_true, Bool.true_or]
      exact foldl_applyValues_set platform now _ updates
    | false =>
      simp only [Bool.false_eq_true, if_false, Bool.false_or]
      exact ih _

/-- **One message.** Telemetry is taken out; its values are applied if its session may report, and
then the session has the slot. -/
theorem ingest_eq (now : Time) (session : Option ClientSession) (s : TelemetryState)
    (delta : Delta) : ingestRemoteTelemetry platform now session s delta =
      (match admittedKey s now session with
        | none => s
        | some key =>
          if reportedValues delta.updates = [] then s
          else ⟨some key, now,
            (reportedValues delta.updates).foldl (applyValues platform now) s.metrics⟩,
        { delta with updates := delta.updates.filter fun u => !isClientTelemetry u }) := by
  rw [ingestRemoteTelemetry]
  simp only [filterMap_forward]
  cases h : admittedKey s now session with
  | none =>
    obtain ⟨hstate, hchanged⟩ := mapAccum_refused platform h delta.updates
    simp [hstate, hchanged]
  | some key =>
    obtain ⟨hstate, hchanged⟩ := mapAccum_admitted platform h delta.updates
    rw [hstate, hchanged, foldl_applyValues]
    by_cases hnone : reportedValues delta.updates = [] <;> simp [hnone, processAll]

end Accepted

theorem consume_owner (platform : RegistryPlatform) {s : TelemetryState} {ctx : ServerContext}
    (hkey : s.telemetryOwnerSessionKey = ctx.telemetryOwnerSessionKey)
    (hseen : s.telemetryOwnerLastSeen = ctx.telemetryOwnerLastSeen) (now : Time)
    (session : ClientSession) (update : DeltaUpdate) :
    let r := (consumeTelemetryUpdate platform now (some session) s update).1
    let ctx' := EdgeLink.consumeTelemetryUpdate ctx now session update
    r.telemetryOwnerSessionKey = ctx'.telemetryOwnerSessionKey ∧
      r.telemetryOwnerLastSeen = ctx'.telemetryOwnerLastSeen := by
  cases htelemetry : isClientTelemetry update with
  | false =>
    simp [consume_of_not_telemetry, EdgeLink.consumeTelemetryUpdate, htelemetry, hkey, hseen]
  | true =>
    rw [consume_of_telemetry platform htelemetry, admittedKey, EdgeLink.consumeTelemetryUpdate]
    cases hidentified : peerIdentified session with
    | false =>
      rw [peerIdentified] at hidentified
      simp [Option.filter, peerIdentified, hidentified, hkey, hseen]
    | true =>
      have hheld : heldByOther s now session.key ↔ ctx.telemetryOwnerSessionKey.isSome ∧
          (0 < ctx.telemetryOwnerLastSeen ∧
            now - ctx.telemetryOwnerLastSeen ≤ REMOTE_TELEMETRY_TTL_MS) ∧
          ctx.telemetryOwnerSessionKey ≠ some session.key := by
        rw [heldByOther, hkey, hseen]
      rw [peerIdentified] at hidentified
      simp only [Option.filter, peerIdentified, hidentified, if_true, Option.bind_some, htelemetry,
        Bool.true_eq_false, or_self, if_false]
      by_cases h : heldByOther s now session.key
      · simp only [if_pos h, if_pos (hheld.1 h)]
        exact ⟨hkey, hseen⟩
      · simp only [if_neg h, if_neg (mt hheld.2 h)]
        exact ⟨trivial, trivial⟩

/-- The owner of the slot is the one that the model of the data handler keeps. -/
theorem ingestRemoteTelemetry_owner (platform : RegistryPlatform) (ctx : ServerContext) (now : Time)
    (session : ClientSession) (m : NetworkMetrics) (delta : Delta) :
    let r := ingestRemoteTelemetry platform now (some session)
      ⟨ctx.telemetryOwnerSessionKey, ctx.telemetryOwnerLastSeen, m⟩ delta
    let r' := EdgeLink.ingestRemoteTelemetry ctx now session delta
    r.1.telemetryOwnerSessionKey = r'.1.telemetryOwnerSessionKey ∧
      r.1.telemetryOwnerLastSeen = r'.1.telemetryOwnerLastSeen ∧ r.2 = r'.2 := by
  have howner : ∀ (updates : List DeltaUpdate) (s : TelemetryState) (ctx : ServerContext),
      s.telemetryOwnerSessionKey = ctx.telemetryOwnerSessionKey →
      s.telemetryOwnerLastSeen = ctx.telemetryOwnerLastSeen →
      let r := (mapAccum (consumeTelemetryUpdate platform now (some session)) s updates).1
      let ctx' := updates.foldl (fun ctx u => EdgeLink.consumeTelemetryUpdate ctx now session u) ctx
      r.telemetryOwnerSessionKey = ctx'.telemetryOwnerSessionKey ∧
        r.telemetryOwnerLastSeen = ctx'.telemetryOwnerLastSeen := by
    intro updates
    induction updates with
    | nil => exact fun s ctx hkey hseen => ⟨hkey, hseen⟩
    | cons update updates ih =>
      intro s ctx hkey hseen
      obtain ⟨hkey', hseen'⟩ := consume_owner platform hkey hseen now session update
      exact ih _ _ hkey' hseen'
  obtain ⟨hkey, hseen⟩ := howner delta.updates
    ⟨ctx.telemetryOwnerSessionKey, ctx.telemetryOwnerLastSeen, m⟩ ctx rfl rfl
  refine ⟨hkey, hseen, ?_⟩
  rw [ingest_eq]
  rfl

/-! ## Runs -/

/-- A message of a session. -/
structure Ingest where
  now : Time
  session : Option ClientSession
  delta : Delta

def step (platform : RegistryPlatform) (s : TelemetryState) (e : Ingest) : TelemetryState :=
  (ingestRemoteTelemetry platform e.now e.session s e.delta).1

/-- A report: telemetry of a peer that has said who it is. -/
abbrev Report := Claim Peer (List DeltaValue)

def reports (e : Ingest) : List Report :=
  match e.session.filter peerIdentified with
  | none => []
  | some session => (reportedValues e.delta.updates).map fun values => ⟨session.key, e.now, values⟩

/-- The reports that are taken over. -/
def taken (events : List Ingest) : List Report :=
  Lease.granted REMOTE_TELEMETRY_TTL_MS (events.flatMap reports)

/-- The lease after the reports of a run. -/
def leaseOf (events : List Ingest) : Option Report :=
  (events.flatMap reports).foldl (Lease.claim REMOTE_TELEMETRY_TTL_MS) none

def applyReport (platform : RegistryPlatform) (m : NetworkMetrics) (r : Report) : NetworkMetrics :=
  applyValues platform r.time m r.content

theorem time_of_mem_reports {e : Ingest} {r : Report} (h : r ∈ reports e) : r.time = e.now := by
  rw [reports] at h
  split at h
  · cases h
  · obtain ⟨values, -, rfl⟩ := List.mem_map.1 h
    rfl

/-- The state in terms of the reports made so far. -/
structure Inv (platform : RegistryPlatform) (events : List Ingest) (s : TelemetryState) : Prop where
  owner : s.telemetryOwnerSessionKey = (leaseOf events).map Claim.holder
  lastSeen : s.telemetryOwnerLastSeen = ((leaseOf events).map Claim.time).getD 0
  metrics : s.metrics = (taken events).foldl (applyReport platform) createMetrics

theorem inv_new (platform : RegistryPlatform) : Inv platform [] createTelemetryState :=
  ⟨rfl, rfl, rfl⟩

section Step

variable {platform : RegistryPlatform} {events : List Ingest}

theorem taken_append (events : List Ingest) (e : Ingest) :
    taken (events ++ [e]) = (reports e).foldl (Lease.record REMOTE_TELEMETRY_TTL_MS)
      (taken events) := by
  rw [taken, taken, Lease.granted, List.flatMap_append, List.foldl_append]
  simp [Lease.granted]

theorem leaseOf_append (events : List Ingest) (e : Ingest) : leaseOf (events ++ [e]) =
    (reports e).foldl (Lease.claim REMOTE_TELEMETRY_TTL_MS) (leaseOf events) := by
  simp [leaseOf, List.foldl_append]

theorem mem_of_mem_taken {r : Report} (h : r ∈ taken events) : ∃ e ∈ events, r.time = e.now := by
  obtain ⟨e, he, hr⟩ := List.mem_flatMap.1 ((Lease.granted_sublist _).subset h)
  exact ⟨e, he, time_of_mem_reports hr⟩

theorem pairwise_reports (hclock : events.Pairwise fun e e' => e.now ≤ e'.now) :
    (events.flatMap reports).Pairwise fun r r' => r.time ≤ r'.time := by
  refine List.pairwise_flatMap.2 ⟨fun e _ => ?_, hclock.imp fun hle r hr r' hr' => ?_⟩
  · refine List.pairwise_of_forall_mem_list fun r hr r' hr' => ?_
    rw [time_of_mem_reports hr, time_of_mem_reports hr']
  · rw [time_of_mem_reports hr, time_of_mem_reports hr']
    exact hle

theorem held_taken (hclock : events.Pairwise fun e e' => e.now ≤ e'.now) :
    Lease.Held REMOTE_TELEMETRY_TTL_MS (leaseOf events) (taken events) :=
  Lease.held_foldl (pairwise_reports hclock)

/-- The slot is held by another session where the lease is not free. -/
theorem Inv.heldByOther_iff {s : TelemetryState} (h : Inv platform events s)
    (hclock : events.Pairwise fun e e' => e.now ≤ e'.now) (hpos : ∀ e ∈ events, 0 < e.now)
    (c : Report) : heldByOther s c.time c.holder ↔
      ¬Lease.free REMOTE_TELEMETRY_TTL_MS (leaseOf events) c = true := by
  have hheld := held_taken hclock
  rw [heldByOther, h.owner, h.lastSeen]
  cases hlease : leaseOf events with
  | none => simp [Lease.free]
  | some held =>
    rw [hlease] at hheld
    obtain ⟨e, he, htime⟩ := mem_of_mem_taken hheld.1
    have hpositive : 0 < held.time := htime ▸ hpos e he
    simp [Lease.free, hpositive, and_comm]

/-- A message keeps the state in step with the reports. -/
theorem Inv.step {s : TelemetryState} (h : Inv platform events s)
    (hclock : events.Pairwise fun e e' => e.now ≤ e'.now) (hpos : ∀ e ∈ events, 0 < e.now)
    {e : Ingest} (he : ∀ e' ∈ events, e'.now ≤ e.now) :
    Inv platform (events ++ [e]) (Telemetry.step platform s e) := by
  rw [Telemetry.step, ingest_eq, admittedKey]
  cases hsession : e.session.filter peerIdentified with
  | none =>
    have hnone : reports e = [] := by rw [reports, hsession]
    exact ⟨by simp [leaseOf_append, h.owner, hnone], by simp [leaseOf_append, h.lastSeen, hnone],
      by simp [taken_append, h.metrics, hnone]⟩
  | some session =>
    have hreports : reports e = (reportedValues e.delta.updates).map fun values =>
        ⟨session.key, e.now, values⟩ := by rw [reports, hsession]
    let c : Report := ⟨session.key, e.now, []⟩
    have hsame : ∀ r ∈ reports e, r.holder = c.holder ∧ r.time = c.time := by
      rw [hreports, List.forall_mem_map]
      exact fun values _ => ⟨rfl, rfl⟩
    have hlater : ∀ r ∈ taken events, r.time ≤ c.time := by
      intro r hr
      obtain ⟨e', he', htime⟩ := mem_of_mem_taken hr
      exact htime ▸ he e' he'
    have hfree := Lease.free_iff (held_taken hclock) hlater
    have hheld := h.heldByOther_iff hclock hpos c
    have hlease : (leaseOf (events ++ [e])).map (fun r => (r.holder, r.time)) =
        if Lease.free REMOTE_TELEMETRY_TTL_MS (leaseOf events) c = true ∧ reports e ≠ [] then
          some (c.holder, c.time)
        else (leaseOf events).map fun r => (r.holder, r.time) := by
      rw [leaseOf_append, Lease.map_foldl_claim hsame]
    have howner : (leaseOf (events ++ [e])).map Claim.holder =
        ((leaseOf (events ++ [e])).map fun r => (r.holder, r.time)).map Prod.fst := by
      simp [Function.comp_def]
    have hseen : (leaseOf (events ++ [e])).map Claim.time =
        ((leaseOf (events ++ [e])).map fun r => (r.holder, r.time)).map Prod.snd := by
      simp [Function.comp_def]
    have htaken : taken (events ++ [e]) =
        if Lease.Open REMOTE_TELEMETRY_TTL_MS (taken events) c then taken events ++ reports e
        else taken events := by
      rw [taken_append, Lease.foldl_record hsame]
    by_cases hopen : Lease.Open REMOTE_TELEMETRY_TTL_MS (taken events) c
    · rw [Option.bind_some, if_neg fun hother => hheld.1 hother (hfree.2 hopen)]
      dsimp only
      by_cases hnone : reportedValues e.delta.updates = []
      · have hempty : reports e = [] := by rw [hreports, hnone, List.map_nil]
        rw [if_pos hnone]
        exact ⟨by simp [leaseOf_append, hempty, h.owner],
          by simp [leaseOf_append, hempty, h.lastSeen],
          by simp [taken_append, hempty, h.metrics]⟩
      · have hsome : reports e ≠ [] := by simpa [hreports] using hnone
        rw [if_neg hnone]
        rw [if_pos ⟨hfree.2 hopen, hsome⟩] at hlease
        refine ⟨by rw [howner, hlease]; rfl, by rw [hseen, hlease]; rfl, ?_⟩
        rw [htaken, if_pos hopen, List.foldl_append, ← h.metrics, hreports, List.foldl_map]
        rfl
    · rw [Option.bind_some, if_pos (hheld.2 fun hfr => hopen (hfree.1 hfr))]
      rw [if_neg fun hfr => hopen (hfree.1 hfr.1)] at hlease
      refine ⟨?_, ?_, ?_⟩
      · rw [howner, hlease, h.owner]
        simp [Function.comp_def]
      · rw [hseen, hlease, h.lastSeen]
        simp [Function.comp_def]
      · rw [htaken, if_neg hopen]
        exact h.metrics

theorem inv_run (hclock : events.Pairwise fun e e' => e.now ≤ e'.now)
    (hpos : ∀ e ∈ events, 0 < e.now) :
    Inv platform events (run (Telemetry.step platform) createTelemetryState events) := by
  induction events using List.reverseRecOn with
  | nil => exact inv_new platform
  | append_singleton events e ih =>
    obtain ⟨hbefore, -, hlast⟩ := List.pairwise_append.1 hclock
    rw [List.forall_mem_append] at hpos
    rw [run_append]
    exact (ih hbefore hpos.1).step hbefore hpos.1 fun e' he' => hlast e' he' e (by simp)

/-! ## What is published -/

theorem applyReport_wellFormed {m : NetworkMetrics} (h : WellFormed m) (r : Report) :
    WellFormed (applyReport platform m r) := by
  have hprocess := process_invariant platform (fun _ _ _ haccepted hm => haccepted.wellFormed hm) h
    r.content
  rw [applyReport, applyValues]
  split_ifs
  · exact hprocess.setLastUpdate r.time
  · exact hprocess

theorem applyReport_lastUpdate (m : NetworkMetrics) (r : Report) :
    (applyReport platform m r).remoteNetworkQuality.lastUpdate =
      if accepts platform r.content then r.time else m.remoteNetworkQuality.lastUpdate := by
  have hprocess := process_invariant platform
    (P := fun m' => m'.remoteNetworkQuality.lastUpdate = m.remoteNetworkQuality.lastUpdate)
    (fun _ _ _ haccepted hm => (haccepted.lastUpdate _).trans hm) rfl r.content
  simp only [applyReport, applyValues, process_accepts]
  split_ifs
  · rfl
  · exact hprocess

theorem Measured.applyReport {path : String} {known : NetworkMetrics → Bool}
    (h : Measured platform path known) (m : NetworkMetrics) (r : Report) :
    known (applyReport platform m r) = true ↔
      known m = true ∨ r.content.any (measures platform path) = true := by
  rw [← h.process]
  simp only [Telemetry.applyReport, applyValues]
  split_ifs
  · rw [h.setLastUpdate]
  · rfl

end Step

/-- `isFreshRemoteTelemetry`. -/
def isFreshRemoteTelemetry (m : NetworkMetrics) (now : Time) : Bool :=
  decide (0 < m.remoteNetworkQuality.lastUpdate) &&
    decide (now - m.remoteNetworkQuality.lastUpdate ≤ REMOTE_TELEMETRY_TTL_MS)

/-- What a server publishes of its link. -/
structure EffectiveNetworkQuality where
  rtt : Option ℚ
  jitter : Option ℚ
  packetLoss : Option ℚ
  retransmissions : Option ℚ
  queueDepth : Option ℚ
  retransmitRate : Option ℚ
  activeLink : String
  /-- `dataSource` is `"remote-client"` -/
  fromRemoteClient : Bool
  lastUpdate : Time
  hasQualityBasis : Bool
  deriving DecidableEq

/-- The quality that a server publishes, its own link called `localActiveLink`. -/
def getEffectiveNetworkQuality (localActiveLink : String) (m : NetworkMetrics) (now : Time) :
    EffectiveNetworkQuality :=
  let remote := m.remoteNetworkQuality
  let hasFreshRemote := isFreshRemoteTelemetry m now
  { rtt := if hasFreshRemote then remote.rtt else none
    jitter := if hasFreshRemote then remote.jitter else none
    packetLoss := if hasFreshRemote then some remote.packetLoss else none
    retransmissions := if hasFreshRemote then some remote.retransmissions else none
    queueDepth := if hasFreshRemote then some remote.queueDepth else none
    retransmitRate := if hasFreshRemote then some remote.retransmitRate else none
    activeLink := if hasFreshRemote then remote.activeLink else localActiveLink
    fromRemoteClient := hasFreshRemote
    lastUpdate := if hasFreshRemote then remote.lastUpdate else 0
    hasQualityBasis := hasFreshRemote && remote.rtt.isSome }

/-- The score of a link, of 100. -/
def calculateLinkQuality (rtt jitter packetLoss retransmitRate : ℚ) : ℤ :=
  let rttScore := clamp 0 1 (1 - rtt / 1000)
  let jitterScore := clamp 0 1 (1 - jitter / 500)
  let lossScore := clamp 0 1 (1 - packetLoss)
  let retransmitScore := clamp 0 1 (1 - retransmitRate / (1 / 10))
  ⌊lossScore * 40 + rttScore * 30 + jitterScore * 20 + retransmitScore * 10 + 1 / 2⌋

/-- The score that is published, if there is one. -/
def computeLinkQuality (effectiveNetwork : EffectiveNetworkQuality) : Option ℤ :=
  match effectiveNetwork.rtt, effectiveNetwork.jitter, effectiveNetwork.packetLoss,
      effectiveNetwork.retransmitRate with
  | some rtt, some jitter, some packetLoss, some retransmitRate =>
    if effectiveNetwork.hasQualityBasis then
      some (calculateLinkQuality rtt jitter packetLoss retransmitRate)
    else none
  | _, _, _, _ => none

theorem calculateLinkQuality_mem (rtt jitter packetLoss retransmitRate : ℚ) :
    0 ≤ calculateLinkQuality rtt jitter packetLoss retransmitRate ∧
      calculateLinkQuality rtt jitter packetLoss retransmitRate ≤ 100 := by
  have hscore : ∀ x : ℚ, 0 ≤ clamp 0 1 x ∧ clamp 0 1 x ≤ 1 := fun x =>
    ⟨le_clamp 0 1 x, clamp_le zero_le_one⟩
  obtain ⟨hrtt, hrtt'⟩ := hscore (1 - rtt / 1000)
  obtain ⟨hjitter, hjitter'⟩ := hscore (1 - jitter / 500)
  obtain ⟨hloss, hloss'⟩ := hscore (1 - packetLoss)
  obtain ⟨hrate, hrate'⟩ := hscore (1 - retransmitRate / (1 / 10))
  rw [calculateLinkQuality]
  refine ⟨Int.floor_nonneg.2 (by linarith), Int.le_of_lt_add_one (Int.floor_lt.2 ?_)⟩
  push_cast
  linarith

/-- A score takes a fresh report, a round trip time and a jitter. -/
theorem computeLinkQuality_isSome (localActiveLink : String) (m : NetworkMetrics) (now : Time) :
    (computeLinkQuality (getEffectiveNetworkQuality localActiveLink m now)).isSome = true ↔
      isFreshRemoteTelemetry m now = true ∧ m.remoteNetworkQuality.rtt.isSome = true ∧
        m.remoteNetworkQuality.jitter.isSome = true := by
  rw [getEffectiveNetworkQuality, computeLinkQuality]
  cases isFreshRemoteTelemetry m now with
  | false => simp
  | true =>
    cases m.remoteNetworkQuality.rtt with
    | none => simp
    | some rtt => cases m.remoteNetworkQuality.jitter <;> simp

theorem computeLinkQuality_mem {effectiveNetwork : EffectiveNetworkQuality} {score : ℤ}
    (h : computeLinkQuality effectiveNetwork = some score) : 0 ≤ score ∧ score ≤ 100 := by
  rw [computeLinkQuality] at h
  split at h
  · split_ifs at h
    exact Option.some.inj h ▸ calculateLinkQuality_mem ..
  · cases h

section Published

variable {platform : RegistryPlatform} {log : List Report}

/-- Figures are fresh as long as one of them has been reported lately. -/
theorem fresh_iff (htimes : log.Pairwise fun r r' => r.time ≤ r'.time)
    (hpos : ∀ r ∈ log, 0 < r.time) (now : Time) :
    isFreshRemoteTelemetry (log.foldl (applyReport platform) createMetrics) now = true ↔
      ∃ r ∈ log, accepts platform r.content = true ∧ now - r.time ≤ REMOTE_TELEMETRY_TTL_MS := by
  induction log using List.reverseRecOn with
  | nil => simp [isFreshRemoteTelemetry, createMetrics, buildRemoteNetworkQuality]
  | append_singleton log r ih =>
    obtain ⟨hbefore, -, hlast⟩ := List.pairwise_append.1 htimes
    rw [List.forall_mem_append] at hpos
    have ih := ih hbefore hpos.1
    have hr : 0 < r.time := hpos.2 r (by simp)
    rw [List.foldl_append, List.foldl_cons, List.foldl_nil, isFreshRemoteTelemetry,
      applyReport_lastUpdate]
    by_cases haccepts : accepts platform r.content = true
    · rw [if_pos haccepts, decide_eq_true hr, Bool.true_and, decide_eq_true_iff]
      constructor
      · exact fun h => ⟨r, by simp, haccepts, h⟩
      · rintro ⟨r', hr', -, h⟩
        rcases List.mem_append.1 hr' with hr' | hr'
        · have hle := hlast r' hr' r (by simp)
          exact (sub_le_sub_left hle now).trans h
        · rwa [List.mem_singleton.1 hr'] at h
    · rw [if_neg haccepts, ← isFreshRemoteTelemetry, ih]
      simp [List.mem_append, or_and_right, exists_or, haccepts]

theorem Measured.foldl {path : String} {known : NetworkMetrics → Bool}
    (h : Measured platform path known) :
    known (log.foldl (Telemetry.applyReport platform) createMetrics) = true ↔
      ∃ r ∈ log, r.content.any (measures platform path) = true := by
  induction log using List.reverseRecOn with
  | nil => simp [h.unknown]
  | append_singleton log r ih =>
    rw [List.foldl_append, List.foldl_cons, List.foldl_nil, h.applyReport, ih]
    simp [List.mem_append, or_and_right, exists_or]

theorem wellFormed_foldl : WellFormed (log.foldl (applyReport platform) createMetrics) := by
  induction log using List.reverseRecOn with
  | nil => exact wellFormed_createMetrics
  | append_singleton log r ih =>
    rw [List.foldl_append]
    exact applyReport_wellFormed ih r

end Published

/-- **The telemetry slot.** After any messages in the order of time, the figures that a server has
of its link are those of the reports taken over, and they are figures that can be shown. Reports of
two sessions are never taken over within 15 seconds of each other, and those of a message are taken
over whenever no other session's has been for that long. Telemetry never reaches the tree, and
nothing else is held back. A score of the link, from 0 to 100, is published exactly when some value
has been accepted in the last 15 seconds, and a round trip time and a jitter ever. -/
theorem telemetry_lease (platform : RegistryPlatform) (events : List Ingest)
    (hclock : events.Pairwise fun e e' => e.now ≤ e'.now) (hpos : ∀ e ∈ events, 0 < e.now) :
    let s := run (step platform) createTelemetryState events
    s.metrics = (taken events).foldl (applyReport platform) createMetrics ∧ WellFormed s.metrics ∧
      ((taken events).Pairwise fun r r' =>
        r.holder ≠ r'.holder → REMOTE_TELEMETRY_TTL_MS < r'.time - r.time) ∧
      (∀ e : Ingest, taken (events ++ [e]) =
        if ∀ r ∈ taken events, e.session.map (·.key) ≠ some r.holder →
          REMOTE_TELEMETRY_TTL_MS < e.now - r.time
        then taken events ++ reports e else taken events) ∧
      (∀ e : Ingest, (ingestRemoteTelemetry platform e.now e.session s e.delta).2.updates =
        e.delta.updates.filter fun u => !isClientTelemetry u) ∧
      ∀ localActiveLink now,
        let score := computeLinkQuality (getEffectiveNetworkQuality localActiveLink s.metrics now)
        (score.isSome = true ↔
          (∃ r ∈ taken events, accepts platform r.content = true ∧
            now - r.time ≤ REMOTE_TELEMETRY_TTL_MS) ∧
          (∃ r ∈ taken events,
            r.content.any (measures platform "networking.edgeLink.rtt") = true) ∧
          ∃ r ∈ taken events,
            r.content.any (measures platform "networking.edgeLink.jitter") = true) ∧
        ∀ q ∈ score, 0 ≤ q ∧ q ≤ 100 := by
  have hinv : Inv platform events (run (Telemetry.step platform) createTelemetryState events) :=
    inv_run hclock hpos
  have htimes : (taken events).Pairwise fun r r' => r.time ≤ r'.time :=
    (pairwise_reports hclock).sublist (Lease.granted_sublist _)
  have htaken : ∀ r ∈ taken events, 0 < r.time := by
    intro r hr
    obtain ⟨e, he, htime⟩ := mem_of_mem_taken hr
    exact htime ▸ hpos e he
  refine ⟨hinv.metrics, hinv.metrics ▸ wellFormed_foldl, Lease.exclusive _, fun e => ?_,
    fun e => ?_, fun localActiveLink now => ?_⟩
  · rw [taken_append]
    cases hsession : e.session.filter peerIdentified with
    | none => simp [reports, hsession]
    | some session =>
      have hkey : e.session.map (·.key) = some session.key := by
        rw [(Option.filter_eq_some_iff.1 hsession).1, Option.map_some]
      have hsame : ∀ r ∈ reports e, r.holder = (⟨session.key, e.now, []⟩ : Report).holder ∧
          r.time = (⟨session.key, e.now, []⟩ : Report).time := by
        rw [reports, hsession, List.forall_mem_map]
        exact fun values _ => ⟨rfl, rfl⟩
      rw [Lease.foldl_record hsame]
      simp only [Lease.Open, hkey, ne_eq, Option.some.injEq, eq_comm]
  · rw [ingest_eq]
  · refine ⟨?_, fun q hq => computeLinkQuality_mem hq⟩
    rw [computeLinkQuality_isSome, hinv.metrics, fresh_iff htimes htaken,
      (measured_rtt platform).foldl, (measured_jitter platform).foldl]

/-- A platform for values that are numbers already. -/
def numberPlatform : RegistryPlatform where
  toLowerCase s := s
  stringToNumber _ := .nan
  numberToString q := toString q.num
  dateParse _ := none
  sha256 _ := ""

/-- A round trip time and a jitter reported from a port. -/
def rttReport (now : Time) (port : ℕ) (rtt : ℚ) : Ingest where
  now := now
  session := some { newSession {} 0 ⟨"10.0.0.1", port⟩ with clientId := some "boat" }
  delta :=
    { context := none
      updates := [{
        source := .obj [("label", .str CLIENT_TELEMETRY_SOURCE)]
        values := [⟨"networking.edgeLink.boat.rtt", .num (.finite rtt)⟩,
          ⟨"networking.edgeLink.boat.jitter", .num (.finite 5)⟩] }] }

/-- Two clients, of which the second one has to wait until the first one is silent. -/
def twoClients : List Ingest := [rttReport 1000 1 40, rttReport 2000 2 0, rttReport 17000 2 60]

theorem telemetry_lease_twoClients :
    taken twoClients = reports (rttReport 1000 1 40) ++ reports (rttReport 17000 2 60) ∧
      WellFormed (run (step numberPlatform) createTelemetryState twoClients).metrics ∧
      (computeLinkQuality (getEffectiveNetworkQuality "primary"
        (run (step numberPlatform) createTelemetryState twoClients).metrics 32000)).isSome =
          true := by
  have htaken : taken twoClients =
      reports (rttReport 1000 1 40) ++ reports (rttReport 17000 2 60) := by decide +kernel
  obtain ⟨-, hformed, -, -, -, hscore⟩ := telemetry_lease numberPlatform twoClients
    (by decide +kernel) (by decide +kernel)
  refine ⟨htaken, hformed, (hscore "primary" 32000).1.2 ?_⟩
  rw [htaken]
  decide +kernel

end Telemetry

end EdgeLink
