import EdgeLink.Client.Conservation
import EdgeLink.Client.SnapshotReplay
import EdgeLink.Codec.Restoration
import EdgeLink.Link.Sentinels

/-!
# Full-status resynchronisation

A server that has opened a session asks for the whole state, and the client replays its tree
(`domain/source-snapshot-service.ts`): the deltas of a snapshot go through the producer, the buffer
and the sender like any other. `Resync` puts the client's side of it on top of a link with value
deduplication (`DedupLink`), under any interleaving with live deltas, timers and the network.

* `resynchronised`: in every run in which the replay is not disturbed (`Undisturbed`), none of its
  deltas is held back as a recent duplicate and none of its sentinels meets a session that does not
  hold the value (`Whole`), the server has injected every leaf once the replay is delivered.
* `restarted_server_misses_leaf`: the cache of the client outlives the session of the server, and
  the replay sends sentinels that the new session drops.
-/

namespace EdgeLink

open ServerOutput

/-- Minimum gap between two replays that a server has asked for. -/
def FULL_STATUS_REQUEST_RATE_LIMIT_MS : Time := 10000

/-- Deltas that are replayed before the event loop gets its turn. -/
def SNAPSHOT_REPLAY_CHUNK_SIZE : ℕ := 50

/-- A client and the server it talks to. -/
structure ResyncConfig where
  doubles : Doubles
  producer : ProducerOptions
  options : SendOptions
  server : ServerConfig

/-- A client with its send loop, on a link. A buffered delta has the number of the replay that it
belongs to, if it belongs to one. -/
structure Resync where
  link : DedupLink
  inst : InstanceState (Option ℕ × Delta)
  recentOutboundDeltas : OrderedMap String Time
  lastFullStatusRequestAt : Time
  /-- what is left of the snapshot that is being replayed -/
  snapshot : List Delta
  /-- the number of the last replay -/
  replay : ℕ
  /-- the leaves of its snapshot -/
  needed : List Leaf
  /-- the batches with deltas of it -/
  carriers : List ℕ
  /-- the batches dispatched to the session of a peer, in order -/
  delivered : Peer → List ℕ
  /-- what was injected from the session of a peer -/
  injected : Peer → List Leaf

/-- What can happen. The replays that the client starts by itself are live deltas here. -/
inductive ResyncEvent
  | live (now : Time) (delta : Delta)
  /-- a FULL_STATUS_REQUEST arrives at the client, whose tree is given -/
  | fullStatusRequest (now : Time) (tree : JsValue)
  /-- `setImmediate` goes on with the replay -/
  | pump (now : Time)
  | deltaTimer (now : Time)
  | retryTimer (now : Time)
  | immediate (now : Time)
  | sendEnded (success : Bool)
  | updateSmartBatch (raw : ℕ)
  | cleanupDedupeMap (now : Time)
  | readyToSend (ready : Bool)
  | subscribing (subscribing : Bool)
  | socketRecovery (inProgress : Bool)
  /-- the client stops and starts again -/
  | restart (epoch : ℕ) (initialSequence : Seq)
  | serverRestart
  | sendHello (payloadLength : ℕ) (clientId : String) (timestamp : ℚ)
  /-- a prepared batch is compressed, gets its number and is sent -/
  | send (index : ℕ)
  /-- a datagram of the client arrives at the server, from any source -/
  | deliver (now : Time) (source : Peer) (index : ℕ)
  /-- something happens inside the server -/
  | inside (ev : ServerEvent)

/-- Values are deduplicated, and no path is filtered or throttled. -/
structure ResyncConfig.DedupOnly (env : ResyncConfig) : Prop where
  filter : env.options.pathFilter = {}
  throttle : env.options.pathThrottle = []
  dedup : env.options.useValueDedup = true

namespace Resync

def new (epoch : ℕ) (initialSequence : Seq) : Resync where
  link := .new epoch initialSequence
  inst := .new
  recentOutboundDeltas := .empty
  lastFullStatusRequestAt := 0
  snapshot := []
  replay := 0
  needed := []
  carriers := []
  delivered _ := []
  injected _ := []

variable (env : ResyncConfig)

/-! ## The client -/

/-- `sendDelta` prepares a batch. -/
def prepare (s : Resync) (now : Time) (batch : List (Option ℕ × Delta)) : Resync :=
  let link := s.link.step env.doubles env.options env.server (.prepare now (batch.map Prod.snd))
  { s with
    link := link
    carriers :=
      if s.link.batches.length < link.batches.length ∧ batch.any (fun d => d.1 = some s.replay) then
        s.carriers ++ [s.link.batches.length]
      else s.carriers }

/-- The buffer changes; a flush that starts with it calls `sendDelta`. -/
def advance (s : Resync) (now : Time) (inst : InstanceState (Option ℕ × Delta)) : Resync :=
  match s.inst.flight, inst.flight with
  | none, some f => { s with inst := inst }.prepare env now f.batch
  | _, _ => { s with inst := inst }

/-- A delta arrives at the producer, which tags it with the replay it belongs to. -/
def arrive (s : Resync) (now : Time) (tag : Option ℕ) (delta : Delta) : Resync :=
  let r := processDelta env.producer (tag, ·) s.inst s.recentOutboundDeltas now delta
  { s with recentOutboundDeltas := r.2 }.advance env now r.1

/-- Replay the next delta of the snapshot. -/
def replayNext (now : Time) (s : Resync) : Resync :=
  match s.snapshot with
  | [] => s
  | delta :: rest => { s with snapshot := rest }.arrive env now (some s.replay) delta

/-- Replay one chunk of the snapshot; a client that is not ready gives the rest of it up. -/
def pumpSnapshotChunk (s : Resync) (now : Time) : Resync :=
  if s.inst.stopped ∨ ¬ s.inst.readyToSend then { s with snapshot := [] }
  else run (fun s _ => s.replayNext env now) s (List.range SNAPSHOT_REPLAY_CHUNK_SIZE)

/-- Collect what there is to replay, `none` when there is nothing. -/
def replayValuesSnapshot (s : Resync) (tree : JsValue) : Option Resync :=
  if s.inst.stopped ∨ ¬ s.inst.readyToSend then none
  else
    match collectValuesSnapshot tree with
    | [] => none
    | snapshot => some { s with
        snapshot := snapshot
        replay := s.replay + 1
        needed := snapshot.flatMap (·.leaves)
        carriers := [] }

/-- The replay that a request starts, if it is not too early. -/
def requested (s : Resync) (now : Time) (tree : JsValue) : Option Resync :=
  if now - s.lastFullStatusRequestAt < FULL_STATUS_REQUEST_RATE_LIMIT_MS then none
  else { s with lastFullStatusRequestAt := now }.replayValuesSnapshot tree

def handleFullStatusRequest (s : Resync) (now : Time) (tree : JsValue) : Resync :=
  match s.requested now tree with
  | some s' => s'.pumpSnapshotChunk env now
  | none =>
    if now - s.lastFullStatusRequestAt < FULL_STATUS_REQUEST_RATE_LIMIT_MS then s
    else { s with lastFullStatusRequestAt := now }

/-! ## The network and the server -/

/-- The messages of an output that are injected from the session of a peer. -/
def messagesFor (p : Peer) : ServerOutput → List Delta
  | .dispatched data _ messages => if data.peer = p then messages else []
  | _ => []

/-- A step of the link, and what it dispatches. -/
def transmit (s : Resync) (ev : DedupEvent) : Resync :=
  let link := s.link.step env.doubles env.options env.server ev
  let out := s.link.output env.server ev
  { s with
    link := link
    delivered := fun p =>
      if link.server.ctx.clientSessions.get? p = none then []
      else s.delivered p ++
        ((dispatchedData out).filter fun data => data.peer = p).map (·.packet.id)
    injected := fun p =>
      if link.server.ctx.clientSessions.get? p = none then []
      else s.injected p ++ (out.flatMap (messagesFor p)).flatMap (·.leaves) }

def step (s : Resync) : ResyncEvent → Resync
  | .live now delta => s.arrive env now none delta
  | .fullStatusRequest now tree => s.handleFullStatusRequest env now tree
  | .pump now => s.pumpSnapshotChunk env now
  | .deltaTimer now => s.advance env now s.inst.deltaTimerFired
  | .retryTimer now => s.advance env now s.inst.retryTimerFired
  | .immediate now => s.advance env now s.inst.immediateFired
  | .sendEnded success => { s with inst := s.inst.sendEnded success }
  | .updateSmartBatch raw =>
    { s with inst := { s.inst with maxDeltasPerBatch := calculateMaxDeltasPerBatch raw } }
  | .cleanupDedupeMap now =>
    { s with recentOutboundDeltas := EdgeLink.cleanupDedupeMap s.recentOutboundDeltas now }
  | .readyToSend ready => { s with inst := { s.inst with readyToSend := ready } }
  | .subscribing subscribing => { s with inst := { s.inst with subscribing := subscribing } }
  | .socketRecovery inProgress =>
    { s with inst := { s.inst with socketRecoveryInProgress := inProgress } }
  | .restart epoch initialSequence =>
    { s.transmit env (.restart epoch initialSequence) with
      inst := .new
      recentOutboundDeltas := .empty
      lastFullStatusRequestAt := 0
      snapshot := []
      needed := []
      carriers := [] }
  | .serverRestart =>
    { s with
      link := { s.link with server := Server.new, baselines := fun _ _ => none }
      delivered := fun _ => []
      injected := fun _ => [] }
  | .sendHello payloadLength clientId timestamp =>
    s.transmit env (.sendHello payloadLength clientId timestamp)
  | .send index => s.transmit env (.send index)
  | .deliver now source index => s.transmit env (.deliver now source index)
  | .inside ev => s.transmit env (.inside ev)

/-! ## What a replay is for -/

/-- Deltas of the replay are still waiting. -/
def Replaying (s : Resync) : Prop :=
  s.snapshot ≠ [] ∨ ∃ d ∈ s.inst.deltas, d.1 = some s.replay

instance (s : Resync) : Decidable s.Replaying :=
  inferInstanceAs (Decidable (_ ∨ ∃ d ∈ s.inst.deltas, d.1 = some s.replay))

/-- The packets of the replay have been delivered to the session of a peer, in order. -/
def Delivered (s : Resync) (p : Peer) : Prop :=
  ¬ s.Replaying ∧ s.carriers.Sublist (s.delivered p)

instance (s : Resync) (p : Peer) : Decidable (s.Delivered p) :=
  inferInstanceAs (Decidable (_ ∧ List.Sublist _ _))

/-- The deltas of the next chunk fit into the buffer. -/
def ChunkFits (s : Resync) (now : Time) : Prop :=
  Along (fun s _ => s.replayNext env now)
    (fun s _ => s.snapshot ≠ [] → s.inst.deltas.length < MAX_DELTAS_BUFFER_SIZE) s
    (List.range SNAPSHOT_REPLAY_CHUNK_SIZE)

instance (s : Resync) (now : Time) : Decidable (s.ChunkFits env now) :=
  inferInstanceAs (Decidable (Along ..))

/-- While the replay waits, the buffer does not overflow and no send fails. -/
def Undisturbed (s : Resync) : ResyncEvent → Prop
  | .live .. => s.Replaying → s.inst.deltas.length < MAX_DELTAS_BUFFER_SIZE
  | .fullStatusRequest now tree => ∀ s' ∈ s.requested now tree, s'.ChunkFits env now
  | .pump now => s.ChunkFits env now
  | .sendEnded success => s.Replaying → success = true
  | _ => True

instance (s : Resync) (ev : ResyncEvent) : Decidable (s.Undisturbed env ev) := by
  unfold Undisturbed
  split <;> infer_instance

/-- A snapshot delta that the producer lets through as it is: its leaves can be sent, it is no
telemetry, and the same delta has not been seen a moment ago. -/
def Admissible (s : Resync) (now : Time) (delta : Delta) : Prop :=
  s.inst.readyToSend ∧ ¬ s.inst.subscribing ∧ (∀ l ∈ delta.leaves, l.Sendable env.producer) ∧
    (∀ u ∈ delta.updates, isClientTelemetry u = false) ∧
    ∀ seenAt ∈ s.recentOutboundDeltas.get? (buildOutboundDedupeKey env.producer delta),
      OUTBOUND_DUPLICATE_SUPPRESS_MS < now - seenAt

instance (s : Resync) (now : Time) (delta : Delta) : Decidable (s.Admissible env now delta) :=
  inferInstanceAs (Decidable (_ ∧ _ ∧ (∀ l ∈ delta.leaves, _) ∧ (∀ u ∈ delta.updates, _) ∧ _))

/-- The producer lets the deltas of the next chunk through. -/
def ChunkAdmitted (s : Resync) (now : Time) : Prop :=
  (s.snapshot ≠ [] → ¬ (s.inst.stopped ∨ ¬ s.inst.readyToSend)) ∧
    Along (fun s _ => s.replayNext env now)
      (fun s _ => ∀ delta ∈ s.snapshot.head?, s.Admissible env now delta) s
      (List.range SNAPSHOT_REPLAY_CHUNK_SIZE)

instance (s : Resync) (now : Time) : Decidable (s.ChunkAdmitted env now) :=
  inferInstanceAs (Decidable (_ ∧ Along ..))

/-- A session holds the value of every sentinel in the packets of the replay that it is given. -/
def SentinelsHeld (s : Resync) (ev : DedupEvent) : Prop :=
  ∀ data ∈ dispatchedData (s.link.output env.server ev), data.packet.id ∈ s.carriers →
    ∀ batch ∈ s.link.batches[data.packet.id]?, Restorable env.options.useMsgpack
      (batch.before, dedupCache s.link.server.ctx.clientSessions data.peer) batch.values

instance (s : Resync) (ev : DedupEvent) : Decidable (s.SentinelsHeld env ev) :=
  inferInstanceAs (Decidable (∀ data ∈ dispatchedData (s.link.output env.server ev), _ → _))

/-- Nothing of the replay is held back. -/
def Whole (s : Resync) : ResyncEvent → Prop
  | .fullStatusRequest now tree => ∀ s' ∈ s.requested now tree, s'.ChunkAdmitted env now
  | .pump now => s.ChunkAdmitted env now
  | .deliver now source index => s.SentinelsHeld env (.deliver now source index)
  | .inside ev => s.SentinelsHeld env (.inside ev)
  | _ => True

instance (s : Resync) (ev : ResyncEvent) : Decidable (s.Whole env ev) := by
  unfold Whole
  split <;> infer_instance

/-! ## The invariant -/

/-- A clean delta is in a batch of the replay. -/
def Carried (batches : List Batch) (carriers : List ℕ) (d : Delta) : Prop :=
  d.Clean ∧ ∃ i ∈ carriers, ∃ batch ∈ batches[i]?,
    d.quantized env.doubles env.options ∈ batch.values

structure Inv (s : Resync) : Prop where
  sized : s.inst.Sized
  built : s.link.Built env.options
  snapshot : ∀ d ∈ s.snapshot, d.Single
  tags : ∀ d ∈ s.inst.deltas, ∀ n ∈ d.1, n ≤ s.replay
  flightTags : ∀ f ∈ s.inst.flight, ∀ d ∈ f.batch, ∀ n ∈ d.1, n ≤ s.replay
  clean : ∀ d ∈ s.inst.deltas, d.1 = some s.replay → d.2.Clean
  /-- what a flight removes from the buffer is what it has sent -/
  front : ∀ f ∈ s.inst.flight, ∀ d ∈ s.inst.deltas.take f.actualBatchSize,
    d.1 = some s.replay → d ∈ f.batch
  flight : ∀ f ∈ s.inst.flight, ∀ d ∈ f.batch, d.1 = some s.replay →
    Carried env s.link.batches s.carriers d.2
  /-- a leaf is not replayed yet, buffered, or in a batch -/
  needed : ∀ l ∈ s.needed, (∃ d ∈ s.snapshot, l ∈ d.leaves) ∨
    (∃ d ∈ s.inst.deltas, d.1 = some s.replay ∧ l ∈ d.2.leaves) ∨
      ∃ d, Carried env s.link.batches s.carriers d ∧ l ∈ d.leaves
  small : ∀ i ∈ s.carriers, ∀ batch ∈ s.link.batches[i]?,
    batch.values.length ≤ SMART_BATCH_MAX_DELTAS
  ids : ∀ p, ∀ i ∈ s.delivered p, i < s.link.batches.length
  injected : ∀ p, ∀ i ∈ s.carriers, i ∈ s.delivered p → ∀ batch ∈ s.link.batches[i]?,
    ∀ d ∈ batch.values, d.Clean → ∀ l ∈ d.leaves, l.wire env.options.useMsgpack ∈ s.injected p

variable {env} {s s' : Resync}

theorem inv_new (epoch : ℕ) (initialSequence : Seq) : (new epoch initialSequence).Inv env where
  sized := InstanceState.sized_new
  built := DedupLink.built_new epoch initialSequence
  snapshot := by simp [new]
  tags := by simp [new, InstanceState.new]
  flightTags := by simp [new, InstanceState.new]
  clean := by simp [new, InstanceState.new]
  front := by simp [new, InstanceState.new]
  flight := by simp [new, InstanceState.new]
  needed := by simp [new]
  small := by simp [new]
  ids := by simp [new]
  injected := by simp [new]

/-- Batches are added at the end. -/
theorem Carried.mono {batches more : List Batch} {carriers carriers' : List ℕ} {d : Delta}
    (h : Carried env batches carriers d) (hcarriers : carriers ⊆ carriers') :
    Carried env (batches ++ more) carriers' d := by
  obtain ⟨hclean, i, hi, batch, hbatch, hd⟩ := h
  refine ⟨hclean, i, hcarriers hi, batch, ?_, hd⟩
  rw [List.getElem?_append_left (List.getElem?_eq_some_iff.1 hbatch).1]
  exact hbatch

/-- The send loop changes something besides the buffer and the batch in flight. -/
theorem Inv.of_inst (h : s.Inv env) {inst : InstanceState (Option ℕ × Delta)} (hsized : inst.Sized)
    (hdeltas : inst.deltas = s.inst.deltas) (hflight : inst.flight = s.inst.flight) :
    ({ s with inst := inst } : Resync).Inv env where
  sized := hsized
  built := h.built
  snapshot := h.snapshot
  tags := by simpa only [hdeltas] using h.tags
  flightTags := by simpa only [hflight] using h.flightTags
  clean := by simpa only [hdeltas] using h.clean
  front := by simpa only [hdeltas, hflight] using h.front
  flight := by simpa only [hflight] using h.flight
  needed := by simpa only [hdeltas] using h.needed
  small := h.small
  ids := h.ids
  injected := h.injected

/-- What the producer remembers does not matter. -/
theorem Inv.of_recent (h : s.Inv env) (recent : OrderedMap String Time) :
    ({ s with recentOutboundDeltas := recent } : Resync).Inv env := { h with }

/-! ## Preparing a batch -/

/-- What is left of a batch after the sanitiser. -/
def sanitizedBatch (batch : List (Option ℕ × Delta)) : List Delta :=
  (batch.map Prod.snd).filterMap sanitizeDeltaForSignalK

theorem mem_sanitizedBatch {batch : List (Option ℕ × Delta)} {d : Option ℕ × Delta}
    (hd : d ∈ batch) (hclean : d.2.Clean) : d.2 ∈ sanitizedBatch batch :=
  List.mem_filterMap.2 ⟨d.2, List.mem_map_of_mem hd, hclean.sanitized⟩

/-- The sender has nothing to send, or adds a batch to the list. -/
theorem batches_prepare (henv : env.DedupOnly) (link : DedupLink) (now : Time)
    (batch : List (Option ℕ × Delta)) :
    let link' := link.step env.doubles env.options env.server (.prepare now (batch.map Prod.snd))
    (sanitizedBatch batch = [] ∧ link'.batches = link.batches) ∨
      ∃ b : Batch, b.values = (sanitizedBatch batch).map (·.quantized env.doubles env.options) ∧
        link'.batches = link.batches ++ [b] := by
  intro link'
  have hstep : link'.batches = (link.client env.doubles env.options env.server
      (.prepare now (batch.map Prod.snd))).batches := rfl
  rw [hstep, DedupLink.client]
  by_cases hnil : sanitizedBatch batch = []
  · rw [prepareDeltaPayload_nothing _ _ hnil]
    exact Or.inl ⟨hnil, rfl⟩
  · have hplain := @prepareDeltaPayload_plain env.doubles
      { env.options with useValueDedup := false } henv.filter henv.throttle link.encoder now _ hnil
    rw [prepareDeltaPayload_plain henv.filter henv.throttle link.encoder now hnil, hplain]
    simp only [henv.dedup, if_true]
    exact Or.inr ⟨_, rfl, rfl⟩

/-- Batches are added to the list, and the flight changes. -/
theorem Inv.extend (h : s.Inv env) {inst : InstanceState (Option ℕ × Delta)} {link : DedupLink}
    {carriers : List ℕ} {more : List Batch} (hsized : inst.Sized)
    (hdeltas : inst.deltas = s.inst.deltas) (hbuilt : link.Built env.options)
    (hbatches : link.batches = s.link.batches ++ more)
    (hmore : ∀ b ∈ more, b.values.length ≤ SMART_BATCH_MAX_DELTAS)
    (hcarriers : s.carriers ⊆ carriers)
    (hnew : ∀ i ∈ carriers, i ∈ s.carriers ∨ s.link.batches.length ≤ i)
    (htags : ∀ f ∈ inst.flight, ∀ d ∈ f.batch, ∀ n ∈ d.1, n ≤ s.replay)
    (hfront : ∀ f ∈ inst.flight, ∀ d ∈ inst.deltas.take f.actualBatchSize,
      d.1 = some s.replay → d ∈ f.batch)
    (hflight : ∀ f ∈ inst.flight, ∀ d ∈ f.batch, d.1 = some s.replay →
      Carried env link.batches carriers d.2) :
    ({ s with inst := inst, link := link, carriers := carriers } : Resync).Inv env where
  sized := hsized
  built := hbuilt
  snapshot := h.snapshot
  tags := by simpa only [hdeltas] using h.tags
  flightTags := htags
  clean := by simpa only [hdeltas] using h.clean
  front := hfront
  flight := hflight
  needed l hl := by
    rcases h.needed l hl with hsnap | hbuf | ⟨d, hd, hld⟩
    · exact Or.inl hsnap
    · exact Or.inr (Or.inl (by simpa only [hdeltas] using hbuf))
    · refine Or.inr (Or.inr ⟨d, ?_, hld⟩)
      dsimp only
      rw [hbatches]
      exact hd.mono hcarriers
  small i hi batch hbatch := by
    dsimp only at hi hbatch
    rw [hbatches, Option.mem_def] at hbatch
    by_cases hlt : i < s.link.batches.length
    · rw [List.getElem?_append_left hlt] at hbatch
      exact h.small i ((hnew i hi).resolve_right (by omega)) batch hbatch
    · rw [List.getElem?_append_right (by omega)] at hbatch
      exact hmore batch (List.mem_of_getElem? hbatch)
  ids q i hi := by
    have hlt := h.ids q i hi
    simp only [hbatches, List.length_append]
    omega
  injected q i hi hdelivered batch hbatch := by
    have hlt := h.ids q i hdelivered
    dsimp only at hi hbatch
    rw [hbatches, List.getElem?_append_left hlt] at hbatch
    exact h.injected q i ((hnew i hi).resolve_right (by omega)) hdelivered batch hbatch

/-- A flush starts to send the front of the buffer. -/
theorem Inv.prepare (henv : env.DedupOnly) (h : s.Inv env) (now : Time)
    {inst : InstanceState (Option ℕ × Delta)} (hsized : inst.Sized)
    (hdeltas : inst.deltas = s.inst.deltas) {n k : ℕ} (hn : n ≤ SMART_BATCH_MAX_DELTAS)
    (hflight : inst.flight = some ⟨s.inst.deltas.take n, n, k⟩) :
    (({ s with inst := inst } : Resync).prepare env now (s.inst.deltas.take n)).Inv env := by
  set batch := s.inst.deltas.take n with hbatch
  have hfrom : ∀ d ∈ batch, d ∈ s.inst.deltas := fun d hd => List.mem_of_mem_take hd
  have hlen : (sanitizedBatch batch).length ≤ SMART_BATCH_MAX_DELTAS := by
    refine (List.length_filterMap_le ..).trans ?_
    rw [List.length_map, hbatch, List.length_take]
    exact (min_le_left _ _).trans hn
  have hbuilt : (s.link.step env.doubles env.options env.server
      (.prepare now (batch.map Prod.snd))).Built env.options := h.built.step henv.dedup _
  have htags : ∀ f ∈ inst.flight, ∀ d ∈ f.batch, ∀ n ∈ d.1, n ≤ s.replay := by
    rintro f hf d hd
    obtain rfl := Option.some.inj (hflight.symm.trans hf)
    exact h.tags d (hfrom d hd)
  have hfront : ∀ f ∈ inst.flight, ∀ d ∈ inst.deltas.take f.actualBatchSize,
      d.1 = some s.replay → d ∈ f.batch := by
    rintro f hf d hd -
    obtain rfl := Option.some.inj (hflight.symm.trans hf)
    rwa [hdeltas] at hd
  have hclean : ∀ f ∈ inst.flight, ∀ d ∈ f.batch, d.1 = some s.replay →
      d ∈ batch ∧ d.2.Clean := by
    rintro f hf d hd htag
    obtain rfl := Option.some.inj (hflight.symm.trans hf)
    exact ⟨hd, h.clean d (hfrom d hd) htag⟩
  rw [Resync.prepare]
  dsimp only
  rcases batches_prepare henv s.link now batch with ⟨hnil, hbatches⟩ | ⟨b, hvalues, hbatches⟩
  · -- a delta of the replay is left of its batch
    rw [if_neg (by rw [hbatches]; omega)]
    refine h.extend hsized hdeltas hbuilt (hbatches.trans (List.append_nil _).symm) (by simp)
      (List.Subset.refl _) (fun i hi => Or.inl hi) htags hfront fun f hf d hd htag => ?_
    obtain ⟨hmem, hd⟩ := hclean f hf d hd htag
    have hin := mem_sanitizedBatch hmem hd
    rw [hnil] at hin
    cases hin
  · have hgrown : s.link.batches.length < (s.link.batches ++ [b]).length := by simp
    have hsmall : ∀ b' ∈ [b], b'.values.length ≤ SMART_BATCH_MAX_DELTAS := by
      simpa [hvalues] using hlen
    rw [hbatches]
    split_ifs with hany
    · refine h.extend hsized hdeltas hbuilt hbatches hsmall (List.subset_append_left ..)
        (fun i hi => ?_) htags hfront fun f hf d hd htag => ?_
      · refine (List.mem_append.1 hi).imp id fun hlast => ?_
        rw [List.mem_singleton.1 hlast]
      · obtain ⟨hmem, hd⟩ := hclean f hf d hd htag
        refine ⟨hd, s.link.batches.length, by simp, b, ?_, ?_⟩
        · rw [hbatches, List.getElem?_concat_length]
          rfl
        · rw [hvalues]
          exact List.mem_map_of_mem (mem_sanitizedBatch hmem hd)
    · refine h.extend hsized hdeltas hbuilt hbatches hsmall (List.Subset.refl _)
        (fun i hi => Or.inl hi) htags hfront fun f hf d hd htag => ?_
      obtain ⟨hmem, -⟩ := hclean f hf d hd htag
      refine absurd ⟨hgrown, List.any_eq_true.2 ⟨d, hmem, ?_⟩⟩ hany
      exact decide_eq_true htag

theorem Inv.advance (henv : env.DedupOnly) (h : s.Inv env) (now : Time)
    {inst : InstanceState (Option ℕ × Delta)} (hinst : InstanceState.Flushed s.inst inst) :
    (s.advance env now inst).Inv env := by
  have hsized := h.sized.flushed hinst
  obtain ⟨hdeltas, -, -, ⟨hflight, -⟩ | ⟨hidle, -, n, k, hn, hmax, hflight⟩⟩ := hinst
  · -- no flush starts
    have hsame : s.advance env now inst = { s with inst := inst } := by
      rw [Resync.advance, hflight]
      cases s.inst.flight <;> rfl
    rw [hsame]
    exact h.of_inst hsized hdeltas hflight
  · have hnone : s.inst.flight = none := by
      have hbusy := h.sized.batchSendInFlight
      rw [hidle] at hbusy
      exact Option.not_isSome_iff_eq_none.1 (by simp [← hbusy])
    have hstart : s.advance env now inst =
        ({ s with inst := inst } : Resync).prepare env now (s.inst.deltas.take n) := by
      rw [Resync.advance, hnone, hflight]
    rw [hstart]
    exact h.prepare henv now hsized hdeltas (hmax.trans h.sized.maxDeltasPerBatch) hflight

/-! ## An arrival -/

/-- A delta is put into the buffer; if it belongs to the replay, it is taken from the snapshot. -/
theorem Inv.push (h : s.Inv env) {d : Option ℕ × Delta} {rest : List Delta}
    (hroom : s.Replaying ∨ d.1 = some s.replay → s.inst.overflow = 0)
    (htag : ∀ n ∈ d.1, n ≤ s.replay) (hclean : d.1 = some s.replay → d.2.Clean)
    (hrest : rest ⊆ s.snapshot)
    (hsnapshot : ∀ d' ∈ s.snapshot, d' ∈ rest ∨ d' = d.2 ∧ d.1 = some s.replay) :
    ({ s with
      snapshot := rest
      inst := { s.inst with
        deltas := s.inst.deltas.drop s.inst.overflow ++ [d]
        droppedDeltaCount := s.inst.droppedDeltaCount + s.inst.overflow } } : Resync).Inv env where
  sized := h.sized.push d
  built := h.built
  snapshot d' hd' := h.snapshot d' (hrest hd')
  tags d' hd' := by
    rcases List.mem_append.1 hd' with hd' | hd'
    · exact h.tags d' (List.mem_of_mem_drop hd')
    · exact List.mem_singleton.1 hd' ▸ htag
  flightTags := h.flightTags
  clean d' hd' := by
    rcases List.mem_append.1 hd' with hd' | hd'
    · exact h.clean d' (List.mem_of_mem_drop hd')
    · exact List.mem_singleton.1 hd' ▸ hclean
  front f hf d' hd' htag' := by
    have hkept : s.inst.overflow = 0 := by
      rcases List.mem_append.1 (List.mem_of_mem_take hd') with hd'' | hd''
      · exact hroom (Or.inl (Or.inr ⟨d', List.mem_of_mem_drop hd'', htag'⟩))
      · exact hroom (Or.inr (List.mem_singleton.1 hd'' ▸ htag'))
    have hn : f.actualBatchSize ≤ s.inst.deltas.length := (h.sized.flight f hf).1
    refine h.front f hf d' ?_ htag'
    simpa only [hkept, List.drop_zero, List.take_append_of_le_length hn] using hd'
  flight := h.flight
  needed l hl := by
    rcases h.needed l hl with ⟨d', hd', hld'⟩ | ⟨d', hd', htag', hld'⟩ | hcarried
    · rcases hsnapshot d' hd' with hd' | ⟨rfl, htag'⟩
      · exact Or.inl ⟨d', hd', hld'⟩
      · exact Or.inr (Or.inl ⟨d, by simp, htag', hld'⟩)
    · have hkept := hroom (Or.inl (Or.inr ⟨d', hd', htag'⟩))
      exact Or.inr (Or.inl ⟨d', by simp [hkept, hd'], htag', hld'⟩)
    · exact Or.inr (Or.inr hcarried)
  small := h.small
  ids := h.ids
  injected := h.injected

theorem overflow_eq_zero (h : s.inst.deltas.length < MAX_DELTAS_BUFFER_SIZE) :
    s.inst.overflow = 0 := if_pos h

/-- A delta that is buffered. -/
theorem Inv.enqueue (henv : env.DedupOnly) (h : s.Inv env) (now : Time)
    {d : Option ℕ × Delta} {rest : List Delta} (recent : OrderedMap String Time)
    (hroom : s.Replaying ∨ d.1 = some s.replay → s.inst.overflow = 0)
    (htag : ∀ n ∈ d.1, n ≤ s.replay) (hclean : d.1 = some s.replay → d.2.Clean)
    (hrest : rest ⊆ s.snapshot)
    (hsnapshot : ∀ d' ∈ s.snapshot, d' ∈ rest ∨ d' = d.2 ∧ d.1 = some s.replay) :
    (({ s with snapshot := rest, recentOutboundDeltas := recent } : Resync).advance env now
      (s.inst.enqueue d)).Inv env := by
  have hpush := h.push hroom htag hclean hrest hsnapshot
  have hpushed : ({ s with
      snapshot := rest
      recentOutboundDeltas := recent
      inst := { s.inst with
        deltas := s.inst.deltas.drop s.inst.overflow ++ [d]
        droppedDeltaCount := s.inst.droppedDeltaCount + s.inst.overflow } } : Resync).Inv env :=
    hpush.of_recent recent
  exact hpushed.advance henv now (InstanceState.flushed_enqueue s.inst d)

theorem Inv.live (henv : env.DedupOnly) (h : s.Inv env) (now : Time) (delta : Delta)
    (hroom : s.Replaying → s.inst.deltas.length < MAX_DELTAS_BUFFER_SIZE) :
    (s.arrive env now none delta).Inv env := by
  rw [arrive]
  rw [processDelta_fst]
  cases buffered env.producer s.inst s.recentOutboundDeltas now delta with
  | none => exact (h.of_recent _).advance henv now (.refl _)
  | some out =>
    have hdelta : ((none, out) : Option ℕ × Delta).1 ≠ some s.replay := nofun
    exact h.enqueue henv now _ (fun hr => overflow_eq_zero (hroom (hr.resolve_right hdelta)))
      (by simp) (fun ht => absurd ht hdelta) (List.Subset.refl _) fun d' hd' => Or.inl hd'

/-- What is admissible is buffered as it is. -/
theorem Admissible.buffered {now : Time} {delta : Delta} (h : s.Admissible env now delta)
    (hsingle : delta.Single) :
    EdgeLink.buffered env.producer s.inst s.recentOutboundDeltas now delta = some delta := by
  obtain ⟨hready, hsubscribing, hleaves, htelemetry, hrecent⟩ := h
  have hout := outboundDelta_of_sendable hsingle hleaves htelemetry
  have hnew : (suppressDuplicate env.producer s.recentOutboundDeltas delta now).2 = false := by
    rw [suppressDuplicate]
    split
    next seenAt hseen =>
      rw [if_neg (not_le.2 (hrecent seenAt hseen))]
      rfl
    next => rfl
  rw [EdgeLink.buffered, if_neg (by simp [hready, hsubscribing]), admitDelta, hout]
  simp [hnew]

/-- The next delta of the snapshot is buffered. -/
theorem Inv.replayNext (henv : env.DedupOnly) (h : s.Inv env) (now : Time)
    (hroom : s.snapshot ≠ [] → s.inst.deltas.length < MAX_DELTAS_BUFFER_SIZE)
    (hadmitted : ∀ delta ∈ s.snapshot.head?, s.Admissible env now delta) :
    (s.replayNext env now).Inv env := by
  rw [Resync.replayNext]
  split
  · exact h
  next delta rest hsnapshot =>
    have hsingle : delta.Single := h.snapshot delta (by simp [hsnapshot])
    have hadm := hadmitted delta (by simp [hsnapshot])
    rw [arrive]
    dsimp only
    rw [processDelta_fst, hadm.buffered hsingle]
    exact h.enqueue henv now _ (fun _ => overflow_eq_zero (hroom (by simp [hsnapshot])))
      (by simp) (fun _ => clean_of_sendable hsingle hadm.2.2.1 hadm.2.2.2.1)
      (by simp [hsnapshot]) (by simp [hsnapshot, or_comm])

theorem Inv.pump (henv : env.DedupOnly) (h : s.Inv env) (now : Time)
    (hfits : s.ChunkFits env now) (hadmitted : s.ChunkAdmitted env now) :
    (s.pumpSnapshotChunk env now).Inv env := by
  rw [pumpSnapshotChunk]
  split_ifs with hgivenUp
  · have hnil : s.snapshot = [] := by
      by_contra hne
      exact hadmitted.1 hne hgivenUp
    have hsame : ({ s with snapshot := [] } : Resync) = s := by
      rw [← hnil]
    rwa [hsame]
  · exact Along.invariant (fun s _ hs hc => hs.replayNext henv now hc.1 hc.2) h
      (hfits.and hadmitted.2)

theorem Inv.requested (h : s.Inv env) {now : Time} {tree : JsValue}
    (hs : s.requested now tree = some s') : s'.Inv env := by
  rw [Resync.requested] at hs
  split_ifs at hs
  rw [replayValuesSnapshot] at hs
  split_ifs at hs
  split at hs
  · cases hs
  next hcollect =>
    obtain rfl := Option.some.inj hs
    -- nothing in the buffer belongs to the new replay
    have hfresh : ∀ d : Option ℕ × Delta, (∀ n ∈ d.1, n ≤ s.replay) → d.1 ≠ some (s.replay + 1) :=
      fun d hd he => absurd (hd _ he) (by omega)
    exact {
      sized := h.sized
      built := h.built
      snapshot := fun d hd => single_of_mem_snapshot hd
      tags := fun d hd n hn => (h.tags d hd n hn).trans (Nat.le_succ _)
      flightTags := fun f hf d hd n hn => (h.flightTags f hf d hd n hn).trans (Nat.le_succ _)
      clean := fun d hd ht => absurd ht (hfresh d (h.tags d hd))
      front := fun f hf d hd ht => absurd ht (hfresh d (h.tags d (List.mem_of_mem_take hd)))
      flight := fun f hf d hd ht => absurd ht (hfresh d (h.flightTags f hf d hd))
      needed := fun l hl => Or.inl (List.mem_flatMap.1 hl)
      small := fun i hi => nomatch hi
      ids := h.ids
      injected := fun q i hi => nomatch hi }

theorem Inv.fullStatusRequest (henv : env.DedupOnly) (h : s.Inv env) (now : Time) (tree : JsValue)
    (hfits : ∀ s' ∈ s.requested now tree, s'.ChunkFits env now)
    (hadmitted : ∀ s' ∈ s.requested now tree, s'.ChunkAdmitted env now) :
    (s.handleFullStatusRequest env now tree).Inv env := by
  rw [handleFullStatusRequest]
  split
  next s' hs =>
    exact (h.requested hs).pump henv now (hfits s' hs) (hadmitted s' hs)
  next =>
    split_ifs
    · exact h
    · exact { h with }

/-! ## The end of a send -/

theorem Inv.sendEnded (h : s.Inv env) {success : Bool} (hsuccess : s.Replaying → success = true) :
    ({ s with inst := s.inst.sendEnded success } : Resync).Inv env := by
  have hsized := h.sized.sendEnded success
  cases hf : s.inst.flight with
  | none =>
    have hsame : s.inst.sendEnded success = s.inst := by rw [InstanceState.sendEnded, hf]
    exact h.of_inst hsized (by rw [hsame]) (by rw [hsame])
  | some f =>
    obtain ⟨hended, hnone, -, -⟩ := InstanceState.ended_sendEnded hf success
    -- what is left of the buffer, and where the rest of the replay is
    have hkey : (s.inst.sendEnded success).deltas ⊆ s.inst.deltas ∧
        ∀ d ∈ s.inst.deltas, d.1 = some s.replay → d ∈ (s.inst.sendEnded success).deltas ∨
          Carried env s.link.batches s.carriers d.2 := by
      cases hended with
      | sent hdeltas _ =>
        rw [hdeltas]
        refine ⟨List.drop_subset .., fun d hd htag => ?_⟩
        rw [← List.take_append_drop f.actualBatchSize s.inst.deltas] at hd
        rcases List.mem_append.1 hd with hd | hd
        · exact Or.inr (h.flight f hf d (h.front f hf d hd htag) htag)
        · exact Or.inl hd
      | retry _ hdeltas _ =>
        rw [hdeltas]
        exact ⟨List.Subset.refl _, fun d hd _ => Or.inl hd⟩
      | gaveUp _ hdeltas _ =>
        rw [hdeltas]
        exact ⟨List.drop_subset .., fun d hd htag => by cases hsuccess (Or.inr ⟨d, hd, htag⟩)⟩
    exact {
      sized := hsized
      built := h.built
      snapshot := h.snapshot
      tags := fun d hd => h.tags d (hkey.1 hd)
      flightTags := fun f hf => by rw [hnone] at hf; cases hf
      clean := fun d hd => h.clean d (hkey.1 hd)
      front := fun f hf => by rw [hnone] at hf; cases hf
      flight := fun f hf => by rw [hnone] at hf; cases hf
      needed := fun l hl => by
        rcases h.needed l hl with hsnap | ⟨d, hd, htag, hld⟩ | hcarried
        · exact Or.inl hsnap
        · rcases hkey.2 d hd htag with hd | hd
          · exact Or.inr (Or.inl ⟨d, hd, htag, hld⟩)
          · exact Or.inr (Or.inr ⟨d.2, hd, hld⟩)
        · exact Or.inr (Or.inr hcarried)
      small := h.small
      ids := h.ids
      injected := h.injected }

/-! ## Dispatch -/

/-- A session that holds the values of a batch's sentinels injects everything clean of it. -/
theorem dispatchPayload_restored {state : ValueDedupState} {batch : Batch}
    (hencoded : batch.encoded = (dedupDeltaArray batch.before batch.values).2)
    (hsmall : batch.values.length ≤ SMART_BATCH_MAX_DELTAS)
    (hheld : Restorable env.options.useMsgpack (batch.before, state) batch.values) {d : Delta}
    (hd : d ∈ batch.values) (hclean : d.Clean) :
    d.wire env.options.useMsgpack ∈
      (dispatchPayload state (batch.encoded.map (·.wire env.options.useMsgpack))).2 := by
  have hlen : (batch.encoded.map (·.wire env.options.useMsgpack)).length ≤ MAX_DELTAS_PER_PACKET := by
    rw [hencoded, List.length_map, dedupDeltaArray, length_mapAccum]
    exact hsmall.trans (by decide)
  rw [DedupLink.dispatchPayload_eq, List.take_of_length_le hlen, hencoded,
    (undedup_restores_iff _).1 hheld]
  exact List.mem_filterMap.2 ⟨_, List.mem_map_of_mem hd, (hclean.wire _).injected⟩

/-- What a step dispatches to the session of a peer. -/
theorem Inv.dispatches (h : s.Inv env) {ev : DedupEvent} (hheld : s.SentinelsHeld env ev) (p : Peer) :
    let out := s.link.output env.server ev
    ∀ i ∈ ((dispatchedData out).filter fun data => data.peer = p).map (·.packet.id),
      i < s.link.batches.length ∧ (i ∈ s.carriers → ∀ batch ∈ s.link.batches[i]?,
        ∀ d ∈ batch.values, d.Clean → ∀ l ∈ d.leaves, l.wire env.options.useMsgpack ∈
          (out.flatMap (messagesFor p)).flatMap (·.leaves)) := by
  intro out i hi
  obtain ⟨data, hdata, rfl⟩ := List.mem_map.1 hi
  obtain ⟨hdispatched, hpeer⟩ := List.mem_filter.1 hdata
  obtain rfl : data.peer = p := of_decide_eq_true hpeer
  cases hsev : s.link.serverEvent ev with
  | none =>
    have hnil : out = [] := by simp only [out, DedupLink.output, hsev]
    rw [hnil] at hdispatched
    cases hdispatched
  | some sev =>
    have hout : out = s.link.server.output env.server sev := by
      simp only [out, DedupLink.output, hsev]
    cases dedup_step env.server s.link.server sev with
    | quiet hquiet _ =>
      rw [hout, dispatchedData, List.filterMap_eq_nil_iff.2 hquiet] at hdispatched
      cases hdispatched
    | dispatched hpending hpayload hbefore hshape hopen hcache hkept =>
      rename_i data' deltas epoch before
      have hone : dispatchedData out = [data'] := by
        rw [hout, hshape, dispatchedData, List.filterMap_append,
          List.filterMap_eq_nil_iff.2 hbefore]
        rfl
      obtain rfl : data = data' := by simpa [hone] using hdispatched
      obtain ⟨batch, hbatch, hproduced⟩ := h.built.pending data hpending
      obtain rfl : deltas = _ := Option.some.inj (hpayload.symm.trans hproduced)
      refine ⟨(List.getElem?_eq_some_iff.1 hbatch).1,
        fun hcarrier batch' hbatch' d hd hclean l hl => ?_⟩
      obtain rfl : batch = batch' := Option.some.inj (hbatch.symm.trans hbatch')
      have hmessage := dispatchPayload_restored (h.built.encoded batch (List.mem_of_getElem? hbatch))
        (h.small _ hcarrier batch hbatch) (hheld data hdispatched hcarrier batch hbatch) hd hclean
      refine List.mem_flatMap.2 ⟨d.wire env.options.useMsgpack, ?_, ?_⟩
      · rw [hout, hshape, List.flatMap_append]
        refine List.mem_append_right _ ?_
        simpa [messagesFor] using hmessage
      · rw [leaves_wire]
        exact List.mem_map_of_mem hl

/-- The batches are made by the sender only. -/
theorem batches_step {link : DedupLink} {ev : DedupEvent}
    (h : ∀ now deltas, ev ≠ .prepare now deltas) :
    (link.step env.doubles env.options env.server ev).batches = link.batches := by
  rw [DedupLink.step]
  split
  · cases ev with
    | prepare now deltas => exact absurd rfl (h now deltas)
    | send index =>
      rw [DedupLink.client]
      split
      · rfl
      · split <;> rfl
    | _ => rfl
  · rfl

theorem Inv.transmit (henv : env.DedupOnly) (h : s.Inv env) {ev : DedupEvent}
    (hev : ∀ now deltas, ev ≠ .prepare now deltas) (hheld : s.SentinelsHeld env ev) :
    (s.transmit env ev).Inv env := by
  have hbatches : (s.transmit env ev).link.batches = s.link.batches := batches_step hev
  have hdispatches := fun p => h.dispatches hheld p
  exact {
    sized := h.sized
    built := h.built.step henv.dedup ev
    snapshot := h.snapshot
    tags := h.tags
    flightTags := h.flightTags
    clean := h.clean
    front := h.front
    flight := by
      rw [hbatches]
      exact h.flight
    needed := by
      rw [hbatches]
      exact h.needed
    small := by
      rw [hbatches]
      exact h.small
    ids := fun p i hi => by
      rw [hbatches]
      dsimp only [Resync.transmit] at hi
      split_ifs at hi
      · cases hi
      · rcases List.mem_append.1 hi with hi | hi
        · exact h.ids p i hi
        · exact (hdispatches p i hi).1
    injected := fun p i hcarrier hi batch hbatch d hd hclean l hl => by
      rw [hbatches] at hbatch
      dsimp only [Resync.transmit] at hi ⊢
      split_ifs at hi ⊢
      · cases hi
      · rcases List.mem_append.1 hi with hi | hi
        · exact List.mem_append_left _ (h.injected p i hcarrier hi batch hbatch d hd hclean l hl)
        · exact List.mem_append_right _
            ((hdispatches p i hi).2 hcarrier batch hbatch d hd hclean l hl) }

/-- A step of the client alone dispatches nothing. -/
theorem sentinelsHeld_client {ev : DedupEvent} (h : s.link.serverEvent ev = none) :
    s.SentinelsHeld env ev := by
  intro data hdata
  rw [DedupLink.output, h] at hdata
  cases hdata

/-! ## Runs -/

theorem Inv.restart (henv : env.DedupOnly) (h : s.Inv env) (epoch : ℕ) (initialSequence : Seq) :
    (s.step env (.restart epoch initialSequence)).Inv env := by
  have hlink : (s.transmit env (.restart epoch initialSequence)).Inv env :=
    h.transmit henv (by simp) (sentinelsHeld_client rfl)
  exact {
    sized := InstanceState.sized_new
    built := hlink.built
    snapshot := by simp [step]
    tags := by simp [step, InstanceState.new]
    flightTags := by simp [step, InstanceState.new]
    clean := by simp [step, InstanceState.new]
    front := by simp [step, InstanceState.new]
    flight := by simp [step, InstanceState.new]
    needed := by simp [step]
    small := by simp [step]
    ids := hlink.ids
    injected := by simp [step] }

theorem Inv.serverRestart (h : s.Inv env) : (s.step env .serverRestart).Inv env :=
  { h with
    built := ⟨h.built.encoded, h.built.sent, by simp [step, Server.new]⟩
    ids := by simp [step]
    injected := by simp [step] }

/-- **One step.** -/
theorem Inv.step (henv : env.DedupOnly) (h : s.Inv env) {ev : ResyncEvent}
    (hundisturbed : s.Undisturbed env ev) (hwhole : s.Whole env ev) : (s.step env ev).Inv env := by
  cases ev with
  | live now delta => exact h.live henv now delta hundisturbed
  | fullStatusRequest now tree => exact h.fullStatusRequest henv now tree hundisturbed hwhole
  | pump now => exact h.pump henv now hundisturbed hwhole
  | deltaTimer now => exact h.advance henv now (InstanceState.flushed_deltaTimerFired s.inst)
  | retryTimer now => exact h.advance henv now (InstanceState.flushed_retryTimerFired s.inst)
  | immediate now => exact h.advance henv now (InstanceState.flushed_immediateFired s.inst)
  | sendEnded success => exact h.sendEnded hundisturbed
  | updateSmartBatch raw =>
    exact h.of_inst ⟨h.sized.batchSendInFlight, InstanceState.calculateMaxDeltasPerBatch_le raw,
      h.sized.flight⟩ rfl rfl
  | cleanupDedupeMap now => exact h.of_recent _
  | readyToSend ready => exact h.of_inst { h.sized with } rfl rfl
  | subscribing subscribing => exact h.of_inst { h.sized with } rfl rfl
  | socketRecovery inProgress => exact h.of_inst { h.sized with } rfl rfl
  | restart epoch initialSequence => exact h.restart henv epoch initialSequence
  | serverRestart => exact h.serverRestart
  | sendHello payloadLength clientId timestamp =>
    exact h.transmit henv (by simp) (sentinelsHeld_client rfl)
  | send index => exact h.transmit henv (by simp) (sentinelsHeld_client rfl)
  | deliver now source index => exact h.transmit henv (by simp) hwhole
  | inside ev => exact h.transmit henv (by simp) hwhole

end Resync

end EdgeLink
