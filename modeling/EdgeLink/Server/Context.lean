import EdgeLink.Codec.ValueDedup
import EdgeLink.Reliability.Sequence

/-!
# The server's shared context

The state that the packet handlers of the reliable server share (`reliable-server/context.ts`):
the sessions, and the per-peer replay guards, which outlive the sessions. Peers are keyed by
address and port; clock readings are arguments, since nothing relates the clock to the events.

* `applyHelloEpoch` raises a guard's epoch and starts its window afresh.
* `getReplayGuard` creates a guard on first use, evicting the least recently seen one of a full
  table. `getReplayGuard_of_mem` and `get?_getReplayGuard` say what it leaves in the table.
-/

namespace EdgeLink

/-- The source of a datagram, which keys sessions and guards. -/
structure Peer where
  address : String
  port : ℕ
  deriving DecidableEq

def MAX_CLIENT_SESSIONS : ℕ := 100

def MAX_SESSIONS_PER_IP : ℕ := 5

def MAX_REPLAY_GUARDS : ℕ := 256

def UDP_RATE_LIMIT_WINDOW : Time := 1000

def UDP_RATE_LIMIT_MAX_PACKETS : ℕ := 200

def SESSION_IDLE_TTL_MS : Time := 300000

/-- The options of a server that the handlers read. -/
structure ServerConfig where
  authenticatedHeaders : Bool := true
  epochBoundAuth : Bool := false
  requestFullStatusOnRestart : Bool := false
  maxNakRounds : ℕ := 5
  ackResendInterval : Time := 1000

structure ClientSession where
  key : Peer
  sourceClientInstanceId : Option String
  clientId : Option String
  sequenceTracker : SequenceTracker
  lastAckSeq : Option Seq
  lastAckSentAt : Time
  hasReceivedData : Bool
  lastPacketTime : Time
  lossBaseSeq : Option Seq
  lossHighestSeq : Option Seq
  lossReceivedCount : ℕ
  lastLossExpected : ℕ
  lastLossReceived : ℕ
  rateLimitCount : ℕ
  rateLimitWindowStart : Time
  metaRequested : Bool
  statusRequested : Bool
  valueDedupState : Option ValueDedupState

/-- A peer's anti-replay guard. It is not dropped with the session. -/
structure ReplayGuard where
  /-- the highest epoch that a HELLO of the peer has advertised, `0` before the first -/
  epoch : ℚ
  window : ReplayWindow
  lastSeen : Time
  /-- whether an authenticated HELLO has arrived from this address and port -/
  handshaked : Bool

structure ServerContext where
  clientSessions : OrderedMap Peer ClientSession
  /-- the packets counted and the start of the counting window, by address -/
  preAuthByIp : OrderedMap String (ℕ × Time)
  replayGuards : OrderedMap Peer ReplayGuard
  /-- the addresses that have completed a handshake, with the time of the last look-up -/
  handshakedAddresses : OrderedMap String Time
  telemetryOwnerSessionKey : Option Peer
  telemetryOwnerLastSeen : Time

def createServerContext : ServerContext where
  clientSessions := .empty
  preAuthByIp := .empty
  replayGuards := .empty
  handshakedAddresses := .empty
  telemetryOwnerSessionKey := none
  telemetryOwnerLastSeen := 0

/-- Delete the oldest entry of a table that has reached its limit. -/
def evictOldestIfFull {κ ν : Type*} [DecidableEq κ] (m : OrderedMap κ ν) (limit : ℕ)
    (lastSeen : ν → Time) : OrderedMap κ ν :=
  if m.size < limit then m
  else match m.oldestBy lastSeen with
    | some oldestKey => m.delete oldestKey
    | none => m

/-! ## Replay guards -/

def newReplayGuard (now : Time) : ReplayGuard where
  epoch := 0
  window := .new REPLAY_WINDOW_SIZE
  lastSeen := now
  handshaked := false

/-- The guard of a peer, created when there is none. -/
def getReplayGuard (ctx : ServerContext) (now : Time) (peerKey : Peer) :
    ServerContext × ReplayGuard :=
  match ctx.replayGuards.get? peerKey with
  | some guard =>
    let guard := { guard with lastSeen := now }
    ({ ctx with replayGuards := ctx.replayGuards.set peerKey guard }, guard)
  | none =>
    let guards := evictOldestIfFull ctx.replayGuards MAX_REPLAY_GUARDS (·.lastSeen)
    let guard := newReplayGuard now
    ({ ctx with replayGuards := guards.set peerKey guard }, guard)

def setReplayGuard (ctx : ServerContext) (peerKey : Peer) (guard : ReplayGuard) : ServerContext :=
  { ctx with replayGuards := ctx.replayGuards.set peerKey guard }

/-- A connection epoch as a HELLO carries it: a positive finite number. -/
def validEpoch : JsValue → Option ℚ
  | .num (.finite epoch) => if 0 < epoch then some epoch else none
  | _ => none

/-- Apply the epoch of a HELLO. A higher epoch than the guard's starts the window afresh. Whether
it was higher is returned. -/
def applyHelloEpoch (ctx : ServerContext) (now : Time) (peerKey : Peer) (epoch : JsValue) :
    ServerContext × Bool :=
  match validEpoch epoch with
  | none => (ctx, false)
  | some epoch =>
    let r := getReplayGuard ctx now peerKey
    if r.2.epoch < epoch then
      (setReplayGuard r.1 peerKey { r.2 with window := r.2.window.reset, epoch := epoch }, true)
    else (r.1, false)

/-- Record that an address has completed a handshake. -/
def markHandshakedAddress (ctx : ServerContext) (now : Time) (address : String) : ServerContext :=
  let addresses :=
    if ctx.handshakedAddresses.has address then ctx.handshakedAddresses
    else evictOldestIfFull ctx.handshakedAddresses MAX_REPLAY_GUARDS id
  { ctx with handshakedAddresses := addresses.set address now }

/-- Record that a HELLO of a peer was authentic. -/
def markPeerHandshaked (ctx : ServerContext) (now : Time) (peerKey : Peer) : ServerContext :=
  let r := getReplayGuard ctx now peerKey
  markHandshakedAddress (setReplayGuard r.1 peerKey { r.2 with handshaked := true }) now
    peerKey.address

/-- Whether an address has completed a handshake. -/
def handshakedPeerAddress (ctx : ServerContext) (now : Time) (address : String) :
    ServerContext × Bool :=
  if ctx.handshakedAddresses.has address then
    ({ ctx with handshakedAddresses := ctx.handshakedAddresses.set address now }, true)
  else (ctx, false)

/-- The epoch to which the tag of an incoming packet must be bound. -/
def peerAuthEpoch (ctx : ServerContext) (peerKey : Peer) : ℚ :=
  match ctx.replayGuards.get? peerKey with
  | some guard => guard.epoch
  | none => 0

/-- The rate limit for sources without a session. -/
def preAuthRateLimited (ctx : ServerContext) (now : Time) (address : String) :
    ServerContext × Bool :=
  let fresh := match ctx.preAuthByIp.get? address with
    | some entry => decide (UDP_RATE_LIMIT_WINDOW ≤ now - entry.2)
    | none => true
  let byIp :=
    if fresh then
      let byIp := ctx.preAuthByIp.set address (0, now)
      if MAX_CLIENT_SESSIONS * 4 < byIp.size then
        byIp.filter fun _ e => decide (now - e.2 < UDP_RATE_LIMIT_WINDOW)
      else byIp
    else ctx.preAuthByIp
  let entry := (byIp.get? address).getD (0, now)
  ({ ctx with preAuthByIp := byIp.set address (entry.1 + 1, entry.2) },
    decide (UDP_RATE_LIMIT_MAX_PACKETS < entry.1 + 1))

/-! ## The table of guards -/

section Guards

variable {ctx : ServerContext} {now : Time} {p q : Peer} {g : ReplayGuard}

theorem get?_evictOldestIfFull {κ ν : Type*} [DecidableEq κ] {m : OrderedMap κ ν} {limit : ℕ}
    {f : ν → Time} {k : κ} {v : ν} (h : (evictOldestIfFull m limit f).get? k = some v) :
    m.get? k = some v := by
  unfold evictOldestIfFull at h
  split_ifs at h
  · exact h
  · split at h
    · rw [OrderedMap.get?_delete] at h
      split_ifs at h
      exact h
    · exact h

/-- A guard that exists is only marked as seen. -/
theorem getReplayGuard_of_mem (h : ctx.replayGuards.get? p = some g) :
    getReplayGuard ctx now p =
      (setReplayGuard ctx p { g with lastSeen := now }, { g with lastSeen := now }) := by
  simp only [getReplayGuard, h, setReplayGuard]

/-- The guard a look-up leaves in the table is the one it returns. -/
theorem get?_getReplayGuard (ctx : ServerContext) (now : Time) (p : Peer) :
    (getReplayGuard ctx now p).1.replayGuards.get? p = some (getReplayGuard ctx now p).2 := by
  unfold getReplayGuard
  split <;> simp

end Guards

end EdgeLink
