import EdgeLink.Server.Sessions
import Mathlib.Data.Rat.Floor

/-!
# Handling of DATA packets

`reliable-server/data-handler.ts`, with the authentication of the header. A handler runs in two
segments: `arriveData` authenticates the header and rate-limits, and then waits for the payload to
be decompressed; `resumeData` opens the session, checks the replay window, feeds the tracker and
dispatches. Everything may happen between the two.
-/

namespace EdgeLink

def MAX_DELTAS_PER_PACKET : ℕ := 500

def CLIENT_TELEMETRY_SOURCE : String := "signalk-edge-link-client-telemetry"

def REMOTE_TELEMETRY_TTL_MS : Time := 15000

/-! ## Authentication of the header -/

/-- The 64 bits of an epoch that a tag binds. -/
def epochTag (epoch : ℚ) : ℕ := (⌊epoch⌋ % 2 ^ 64).toNat

/-- Whether the tag of a packet verifies against the epoch of the peer's guard. A tag bound to an
epoch verifies against that epoch only, and never while the peer has none; with `epochBoundAuth` a
tag without an epoch is a downgrade. -/
def verifyTag (cfg : ServerConfig) (tagEpoch : Option ℕ) (epoch : ℚ) : Bool :=
  !cfg.authenticatedHeaders ||
    match tagEpoch with
    | none => !cfg.epochBoundAuth
    | some bound => decide (0 < epoch ∧ bound = epochTag epoch)

/-! ## The handler up to the decompression -/

/-- The rate limit of DATA packets: of the session, or of the address when there is none. -/
def dataRateLimited (ctx : ServerContext) (now : Time) (peer : Peer) : ServerContext × Bool :=
  match ctx.clientSessions.get? peer with
  | some session =>
    let session :=
      if UDP_RATE_LIMIT_WINDOW ≤ now - session.rateLimitWindowStart then
        { session with rateLimitCount := 0, rateLimitWindowStart := now }
      else session
    let session := { session with rateLimitCount := session.rateLimitCount + 1 }
    (setSession ctx session peer, decide (UDP_RATE_LIMIT_MAX_PACKETS < session.rateLimitCount))
  | none => preAuthRateLimited ctx now peer.address

/-- The first segment of a DATA handler. -/
def arriveData (cfg : ServerConfig) (ctx : ServerContext) (now : Time) (peer : Peer)
    (packet : DataPacket) : ServerContext × Option PendingData :=
  let authEpoch := peerAuthEpoch ctx peer
  if verifyTag cfg packet.tagEpoch authEpoch then
    let r := dataRateLimited ctx now peer
    (r.1, if r.2 then none
      else some ⟨peer, packet, (ctx.clientSessions.get? peer).isSome, authEpoch⟩)
  else (ctx, none)

/-! ## Replay protection and sequence tracking -/

/-- Acknowledge a duplicate at once. -/
def ackDuplicate (session : ClientSession) (now : Time) : ClientSession × List ServerOutput :=
  match session.sequenceTracker.expectedSeq with
  | none => (session, [])
  | some expectedSeq =>
    let ackSeq := expectedSeq - 1
    ({ session with lastAckSeq := some ackSeq, lastAckSentAt := now }, [.ack session.key ackSeq])

/-- The replay gate: the context afterwards, whether the packet is rejected, and what is put out.
A source port that has not handshaked is refused outright when its address has. -/
def rejectReplayedDataPacket (ctx : ServerContext) (now : Time) (session : ClientSession)
    (data : PendingData) : ServerContext × ClientSession × Bool × List ServerOutput :=
  let r := getReplayGuard ctx now data.peer
  let guard := r.2
  let known := if guard.handshaked then (r.1, false) else handshakedPeerAddress r.1 now data.peer.address
  if known.2 then (known.1, session, true, [])
  else
    let fresh := guard.window.accept data.packet.sequence
    let ctx := setReplayGuard known.1 data.peer { guard with window := fresh.2 }
    let recorded := if fresh.1 then [ServerOutput.recorded data guard.epoch] else []
    if fresh.1 ∨ guard.epoch = 0 then (ctx, session, false, recorded)
    else
      let a := ackDuplicate session now
      (ctx, a.1, true, a.2)

/-- Update the loss window of a session for a packet it has accepted. -/
def updateLossWindow (session : ClientSession) (dataSeq : Seq) (resynced : Bool) : ClientSession :=
  if resynced ∨ session.lossBaseSeq = none then
    { session with
      lossBaseSeq := some dataSeq
      lossHighestSeq := some dataSeq
      lossReceivedCount := 1
      lastLossExpected := 0
      lastLossReceived := 0 }
  else
    { session with
      lossReceivedCount := session.lossReceivedCount + 1
      lossHighestSeq :=
        if isAhead dataSeq (session.lossHighestSeq.getD 0) then some dataSeq
        else session.lossHighestSeq }

/-- Ask a session for a full status, once. -/
def requestFullStatus (cfg : ServerConfig) (session : ClientSession) :
    ClientSession × List ServerOutput :=
  if session.statusRequested = false ∧ cfg.requestFullStatusOnRestart then
    ({ session with statusRequested := true }, [.fullStatusRequest session.key])
  else (session, [])

/-- Track the sequence number of an authenticated DATA packet: whether the packet goes on to its
payload, and what is put out. -/
def trackDataSequence (cfg : ServerConfig) (ctx : ServerContext) (now : Time)
    (session : ClientSession) (data : PendingData) :
    ServerContext × ClientSession × Bool × List ServerOutput :=
  let r := rejectReplayedDataPacket ctx now session data
  let ctx := r.1
  let session := r.2.1
  if r.2.2.1 then (ctx, session, false, r.2.2.2)
  else
    let epoch := peerAuthEpoch ctx data.peer
    let t := session.sequenceTracker.processSequence data.packet.sequence
    let session := { session with sequenceTracker := t.1 }
    let out := r.2.2.2 ++ [.tracked data epoch]
    if t.2.duplicate ∨ t.2.lateArrival then
      let a := ackDuplicate session now
      (ctx, a.1, false, out ++ a.2)
    else
      let session := { session with hasReceivedData := true }
      let q := requestFullStatus cfg session
      let session := updateLossWindow q.1 data.packet.sequence t.2.resynced
      (ctx, session, true, out ++ q.2 ++ [.accepted data epoch])

/-! ## Dispatch -/

/-- Whether an update carries the link telemetry of a client. -/
def isClientTelemetry (update : DeltaUpdate) : Bool :=
  update.source.get "label" = .str CLIENT_TELEMETRY_SOURCE

/-- Keep track of who owns the telemetry slot. The telemetry itself never reaches the tree. -/
def consumeTelemetryUpdate (ctx : ServerContext) (now : Time) (session : ClientSession)
    (update : DeltaUpdate) : ServerContext :=
  let peerIdentified := session.clientId.isSome || session.sourceClientInstanceId.isSome
  let ttl := 0 < ctx.telemetryOwnerLastSeen ∧
    now - ctx.telemetryOwnerLastSeen ≤ REMOTE_TELEMETRY_TTL_MS
  if isClientTelemetry update = false ∨ peerIdentified = false then ctx
  else if ctx.telemetryOwnerSessionKey.isSome ∧ ttl ∧
      ctx.telemetryOwnerSessionKey ≠ some session.key then ctx
  else { ctx with telemetryOwnerSessionKey := some session.key, telemetryOwnerLastSeen := now }

/-- Take the telemetry out of a delta. -/
def ingestRemoteTelemetry (ctx : ServerContext) (now : Time) (session : ClientSession)
    (delta : Delta) : ServerContext × Delta :=
  (delta.updates.foldl (fun ctx u => consumeTelemetryUpdate ctx now session u) ctx,
    { delta with updates := delta.updates.filter fun u => !isClientTelemetry u })

/-- What the server makes of one decoded delta against the session's dedup cache: the message to
inject before the telemetry is taken out. -/
def expandDelta (state : ValueDedupState) (rawDelta : Delta) : ValueDedupState × Option Delta :=
  let r := undedupDelta state rawDelta
  (r.1, sanitizeDeltaForSignalK r.2)

/-- Process one decoded delta: the context afterwards, and the message injected, if any. -/
def processServerDelta (now : Time) (session : ClientSession) (s : ServerContext × ValueDedupState)
    (rawDelta : Delta) : (ServerContext × ValueDedupState) × Option Delta :=
  let r := expandDelta s.2 rawDelta
  match r.2 with
  | none => ((s.1, r.1), none)
  | some sanitized =>
    let t := ingestRemoteTelemetry s.1 now session sanitized
    ((t.1, r.1), if t.2.updates = [] then none else some t.2)

/-- Dispatch a payload: the first deltas of it, in order. -/
def decodeAndDispatchPayload (ctx : ServerContext) (now : Time) (session : ClientSession)
    (data : PendingData) : ServerContext × ClientSession × List ServerOutput :=
  match data.packet.payload with
  | none => (ctx, session, [])
  | some deltas =>
    let state := session.valueDedupState.getD createValueDedupState
    let r := mapAccum (processServerDelta now session) (ctx, state)
      (deltas.take MAX_DELTAS_PER_PACKET)
    (r.1.1, { session with valueDedupState := some r.1.2 },
      [.dispatched data (peerAuthEpoch r.1.1 data.peer) r.2.reduceOption])

/-! ## The handler after the decompression -/

/-- The second segment of a DATA handler. -/
def resumeData (cfg : ServerConfig) (ctx : ServerContext) (now : Time) (data : PendingData) :
    ServerContext × List ServerOutput :=
  let r := getOrCreateSession cfg ctx now data.peer
  match r.2 with
  | none => (r.1, [])
  | some session =>
    let session :=
      if data.existingDataSession then session
      else { session with rateLimitCount := 1, rateLimitWindowStart := now }
    let t := trackDataSequence cfg r.1 now session data
    if t.2.2.1 then
      let d := decodeAndDispatchPayload t.1 now t.2.1 data
      (setSession d.1 d.2.1 data.peer, t.2.2.2 ++ d.2.2)
    else (setSession t.1 t.2.1 data.peer, t.2.2.2)

end EdgeLink
