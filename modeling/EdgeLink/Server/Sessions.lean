import EdgeLink.Server.Context
import Mathlib.Data.List.Basic

/-!
# The server's sessions

The session table and the control packets that a session sends (`reliable-server/sessions.ts`),
with what a step of the server puts out: the control packets, and what happened to a DATA packet.

* `getOrCreateSession` finds or opens a session; `expireIdleSessions` closes idle ones.
* `get?_getOrCreateSession_of_ne`: opening a session leaves the others alone, or evicts one.
-/

namespace EdgeLink

def MAX_NAK_SEQUENCES_PER_PACKET : ℕ := 256

/-- A DATA packet: its sequence number, what its authentication tag binds, and the deltas of its
payload, `none` when it cannot be parsed. No handler reads the `id`: it tells apart the packets
that the client built. -/
structure DataPacket where
  id : ℕ
  sequence : Seq
  /-- the 64-bit epoch that the tag binds, `none` for a tag without an epoch -/
  tagEpoch : Option ℕ
  payload : Option (List Delta)

/-- A DATA handler that waits for the decompression of its payload: what it has captured. -/
structure PendingData where
  peer : Peer
  packet : DataPacket
  /-- whether a session existed when the packet arrived -/
  existingDataSession : Bool
  /-- the epoch of the peer's guard when the header was authenticated -/
  authEpoch : ℚ

/-- What a step of the server puts out. The epochs are those of the peer's guard at that moment. -/
inductive ServerOutput where
  | ack (peer : Peer) (sequence : Seq)
  | nak (peer : Peer) (missing : List Seq)
  | metaRequest (peer : Peer)
  | fullStatusRequest (peer : Peer)
  /-- the replay window has recorded the packet -/
  | recorded (data : PendingData) (epoch : ℚ)
  /-- the sequence tracker has been fed the packet -/
  | tracked (data : PendingData) (epoch : ℚ)
  /-- the packet has passed `trackDataSequence` -/
  | accepted (data : PendingData) (epoch : ℚ)
  /-- the payload has been dispatched, with what is injected -/
  | dispatched (data : PendingData) (epoch : ℚ) (messages : List Delta)
  /-- the tracker of a session has given up a number -/
  | abandoned (peer : Peer) (sequence : Seq)

def newSession (cfg : ServerConfig) (now : Time) (peer : Peer) : ClientSession where
  key := peer
  sourceClientInstanceId := none
  clientId := none
  sequenceTracker := .new { maxNakRounds := cfg.maxNakRounds }
  lastAckSeq := none
  lastAckSentAt := 0
  hasReceivedData := false
  lastPacketTime := now
  lossBaseSeq := none
  lossHighestSeq := none
  lossReceivedCount := 0
  lastLossExpected := 0
  lastLossReceived := 0
  rateLimitCount := 0
  rateLimitWindowStart := now
  metaRequested := false
  statusRequested := false
  valueDedupState := none

/-- The number of sessions of an address. -/
def ipSessionCount (ctx : ServerContext) (address : String) : ℕ :=
  ctx.clientSessions.keys.countP fun k => k.address = address

def setSession (ctx : ServerContext) (session : ClientSession) (peer : Peer) : ServerContext :=
  { ctx with clientSessions := ctx.clientSessions.set peer session }

/-- The session of a peer, opened when there is none. A full table first evicts the session that
has been idle longest; a source address with too many sessions is refused. -/
def getOrCreateSession (cfg : ServerConfig) (ctx : ServerContext) (now : Time) (peer : Peer) :
    ServerContext × Option ClientSession :=
  match ctx.clientSessions.get? peer with
  | some existing =>
    let session := { existing with lastPacketTime := now }
    (setSession ctx session peer, some session)
  | none =>
    let sessions := evictOldestIfFull ctx.clientSessions MAX_CLIENT_SESSIONS (·.lastPacketTime)
    let ctx := { ctx with clientSessions := sessions }
    if MAX_SESSIONS_PER_IP ≤ ipSessionCount ctx peer.address then (ctx, none)
    else
      let session := newSession cfg now peer
      (setSession ctx session peer, some session)

/-- Remove the sessions that have been idle for too long. -/
def expireIdleSessions (ctx : ServerContext) (now : Time) : ServerContext :=
  let live := fun (_ : Peer) (s : ClientSession) => now - s.lastPacketTime ≤ SESSION_IDLE_TTL_MS
  { ctx with clientSessions := ctx.clientSessions.filter fun k s => live k s }

/-- Send the NAKs of a batch, split into datagrams. -/
def sendNAK (peer : Peer) (missingSeqs : List Seq) : List ServerOutput :=
  (missingSeqs.toChunks MAX_NAK_SEQUENCES_PER_PACKET).map (.nak peer)

/-- The turn of one session in `sendPeriodicACKs`. -/
def sendPeriodicACK (cfg : ServerConfig) (session : ClientSession) (now : Time) :
    ClientSession × List ServerOutput :=
  match session.sequenceTracker.expectedSeq with
  | none => (session, [])
  | some expectedSeq =>
    let ackSeq := expectedSeq - 1
    if session.hasReceivedData = false then (session, [])
    else if session.lastAckSeq = some ackSeq ∧ now - session.lastAckSentAt < cfg.ackResendInterval
    then (session, [])
    else ({ session with lastAckSeq := some ackSeq, lastAckSentAt := now }, [.ack session.key ackSeq])

/-- The NAK timer of a number fires in a session. -/
def sessionNakTimer (session : ClientSession) (sequence : Seq) :
    ClientSession × List ServerOutput :=
  let r := session.sequenceTracker.nakTimerFired sequence
  ({ session with sequenceTracker := r.1 }, if r.2 then [.abandoned session.key sequence] else [])

/-- The NAK flush timer fires in a session. -/
def sessionNakFlush (session : ClientSession) : ClientSession × List ServerOutput :=
  let r := session.sequenceTracker.nakFlushFired
  ({ session with sequenceTracker := r.1 }, sendNAK session.key r.2)

section Table

variable {cfg : ServerConfig} {ctx : ServerContext} {now : Time} {p q : Peer} {s : ClientSession}

/-- A session found or opened is the one in the table. -/
theorem get?_getOrCreateSession
    (h : (getOrCreateSession cfg ctx now p).2 = some s) :
    (getOrCreateSession cfg ctx now p).1.clientSessions.get? p = some s ∧
      ((ctx.clientSessions.get? p = none ∧ s = newSession cfg now p) ∨
        ∃ s', ctx.clientSessions.get? p = some s' ∧ s = { s' with lastPacketTime := now }) := by
  unfold getOrCreateSession at h ⊢
  split at h
  next existing he =>
    obtain rfl := Option.some.inj h
    exact ⟨OrderedMap.get?_set_self _ _ _, Or.inr ⟨existing, he, rfl⟩⟩
  next he =>
    dsimp only at h ⊢
    split_ifs at h ⊢
    obtain rfl := Option.some.inj h
    exact ⟨OrderedMap.get?_set_self _ _ _, Or.inl ⟨he, rfl⟩⟩

/-- A peer that is refused a session has none. -/
theorem get?_getOrCreateSession_none (h : (getOrCreateSession cfg ctx now p).2 = none) :
    ctx.clientSessions.get? p = none ∧
      (getOrCreateSession cfg ctx now p).1.clientSessions.get? p = none := by
  unfold getOrCreateSession at h ⊢
  split at h
  · cases h
  next he =>
    dsimp only at h ⊢
    split_ifs at h ⊢
    refine ⟨he, Option.eq_none_iff_forall_ne_some.2 fun s hs => ?_⟩
    rw [get?_evictOldestIfFull hs] at he
    cases he

/-- Opening a session leaves the sessions of other peers alone, or evicts one. -/
theorem get?_getOrCreateSession_of_ne (hq : q ≠ p)
    (h : (getOrCreateSession cfg ctx now p).1.clientSessions.get? q = some s) :
    ctx.clientSessions.get? q = some s := by
  unfold getOrCreateSession at h
  split at h
  · simpa [setSession, OrderedMap.get?_set, hq] using h
  · dsimp only at h
    split_ifs at h
    · exact get?_evictOldestIfFull h
    · rw [setSession, OrderedMap.get?_set, if_neg hq] at h
      exact get?_evictOldestIfFull h

/-- What holds of every session holds after one has been found or opened, if a new session has it
and the time of the last packet does not matter to it. -/
theorem forall_getOrCreateSession {P : Peer → ClientSession → Prop}
    (h : ∀ q s, ctx.clientSessions.get? q = some s → P q s) (hnew : P p (newSession cfg now p))
    (hkept : ∀ s, P p s → P p { s with lastPacketTime := now }) :
    (∀ q s, (getOrCreateSession cfg ctx now p).1.clientSessions.get? q = some s → P q s) ∧
      ∀ s, (getOrCreateSession cfg ctx now p).2 = some s → P p s := by
  have opened : ∀ s, (getOrCreateSession cfg ctx now p).2 = some s → P p s := by
    intro s hs
    rcases (get?_getOrCreateSession hs).2 with ⟨-, rfl⟩ | ⟨s', hs', rfl⟩
    · exact hnew
    · exact hkept s' (h p s' hs')
  refine ⟨fun q s hq => ?_, opened⟩
  by_cases hqp : q = p
  · subst hqp
    cases hr : (getOrCreateSession cfg ctx now q).2 with
    | none =>
      rw [(get?_getOrCreateSession_none hr).2] at hq
      cases hq
    | some s' =>
      rw [(get?_getOrCreateSession hr).1] at hq
      exact Option.some.inj hq ▸ opened s' hr
  · exact h q s (get?_getOrCreateSession_of_ne hqp hq)

end Table

end EdgeLink
