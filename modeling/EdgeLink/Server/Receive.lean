import EdgeLink.Foundations.Run
import EdgeLink.Server.DataHandler

/-!
# The server as a step function

The packet dispatcher of `reliable-server/receive.ts`, with the HELLO handler, and the server as a
step function over everything that can happen to it: a HELLO, the arrival of a DATA packet, the
end of a decompression, ticks of the ACK timer, NAK timers and the expiry of idle sessions. A
handler segment is atomic, and segments interleave freely.
-/

namespace EdgeLink

def HELLO_PAYLOAD_MAX_BYTES : ℕ := 4096

/-- A HELLO packet: the length of its payload, and what it parses to. -/
structure Hello where
  payloadLength : ℕ
  /-- `none` when the payload is not JSON -/
  info : Option JsValue

/-- A trimmed string that is not empty. -/
def trimmedString : JsValue → Option String
  | .str s => if trim s = "" then none else some (trim s)
  | _ => none

/-- Apply the identity of a HELLO to the session. -/
def applyHelloIdentity (session : ClientSession) (info : JsValue) : ClientSession :=
  let helloClientId := trimmedString (info.get "clientId")
  let helloInstanceId := trimmedString (info.get "instanceId")
  let peerSuffix := session.key.address ++ ":" ++ toString session.key.port
  { session with
    clientId := helloClientId
    sourceClientInstanceId := some <|
      match helloInstanceId, helloClientId with
      | some instanceId, _ => instanceId ++ "@" ++ peerSuffix
      | none, some clientId => clientId ++ "@" ++ peerSuffix
      | none, none => peerSuffix }

/-- The session state of a restarted peer. -/
def restartSession (session : ClientSession) : ClientSession :=
  { session with
    sequenceTracker := session.sequenceTracker.reset
    lossBaseSeq := none
    lossHighestSeq := none
    lossReceivedCount := 0
    lastLossExpected := 0
    lastLossReceived := 0
    lastAckSeq := none }

/-- Bind the identity and the epoch of a parsed HELLO. -/
def parseHelloInfo (ctx : ServerContext) (now : Time) (session : ClientSession) (hello : Hello) :
    ServerContext × ClientSession :=
  match hello.info with
  | some info =>
    if info.isObjectType ∧ info ≠ .null then
      let session := applyHelloIdentity session info
      let ctx := markPeerHandshaked ctx now session.key
      let r := applyHelloEpoch ctx now session.key (info.get "epoch")
      (r.1, if r.2 then restartSession session else session)
    else (ctx, session)
  | none => (ctx, session)

/-- Ask for metadata and for a full status, each once. -/
def primeSessionRequests (cfg : ServerConfig) (session : ClientSession) :
    ClientSession × List ServerOutput :=
  let out := if session.metaRequested then [] else [ServerOutput.metaRequest session.key]
  let q := requestFullStatus cfg { session with metaRequested := true }
  (q.1, out ++ q.2)

/-- Handle a HELLO packet. -/
def handleHelloPacket (cfg : ServerConfig) (ctx : ServerContext) (now : Time) (peer : Peer)
    (hello : Hello) : ServerContext × List ServerOutput :=
  let r := getOrCreateSession cfg ctx now peer
  match r.2 with
  | none => (r.1, [])
  | some session =>
    if HELLO_PAYLOAD_MAX_BYTES < hello.payloadLength then (r.1, [])
    else
      let h := parseHelloInfo r.1 now session hello
      let q := primeSessionRequests cfg h.2
      (setSession h.1 q.1 peer, q.2)

/-- A server: its shared context, and the DATA handlers that wait for a decompression. -/
structure Server where
  ctx : ServerContext
  pending : List PendingData

/-- What can happen to a server. -/
inductive ServerEvent where
  | hello (now : Time) (peer : Peer) (hello : Hello)
  | arrive (now : Time) (peer : Peer) (packet : DataPacket)
  /-- the decompression of a waiting handler ends -/
  | resume (now : Time) (index : ℕ)
  | ackTick (now : Time) (peer : Peer)
  | nakTimer (peer : Peer) (sequence : Seq)
  | nakFlush (peer : Peer)
  | expire (now : Time)

namespace Server

def new : Server := ⟨createServerContext, []⟩

/-- Run a step of one session. -/
def onSession (s : Server) (peer : Peer)
    (f : ClientSession → ClientSession × List ServerOutput) : Server × List ServerOutput :=
  match s.ctx.clientSessions.get? peer with
  | none => (s, [])
  | some session => ({ s with ctx := setSession s.ctx (f session).1 peer }, (f session).2)

/-- One step of the server: the server afterwards, and what it puts out. -/
def handle (cfg : ServerConfig) (s : Server) : ServerEvent → Server × List ServerOutput
  | .hello now peer hello =>
    let r := handleHelloPacket cfg s.ctx now peer hello
    ({ s with ctx := r.1 }, r.2)
  | .arrive now peer packet =>
    let r := arriveData cfg s.ctx now peer packet
    (⟨r.1, s.pending ++ r.2.toList⟩, [])
  | .resume now index =>
    match s.pending[index]? with
    | none => (s, [])
    | some data =>
      let r := resumeData cfg s.ctx now data
      (⟨r.1, s.pending.eraseIdx index⟩, r.2)
  | .ackTick now peer => s.onSession peer fun session => sendPeriodicACK cfg session now
  | .nakTimer peer sequence => s.onSession peer fun session => sessionNakTimer session sequence
  | .nakFlush peer => s.onSession peer sessionNakFlush
  | .expire now => ({ s with ctx := expireIdleSessions s.ctx now }, [])

def step (cfg : ServerConfig) (s : Server) (ev : ServerEvent) : Server := (s.handle cfg ev).1

def output (cfg : ServerConfig) (s : Server) (ev : ServerEvent) : List ServerOutput :=
  (s.handle cfg ev).2

theorem handle_resume_none {s : Server} {index : ℕ} (h : s.pending[index]? = none)
    (cfg : ServerConfig) (now : Time) : s.handle cfg (.resume now index) = (s, []) := by
  simp only [handle, h]

/-- A handler that is waiting goes on, and waits no more. -/
theorem handle_resume_some {s : Server} {index : ℕ} {data : PendingData}
    (h : s.pending[index]? = some data) (cfg : ServerConfig) (now : Time) :
    s.handle cfg (.resume now index) =
      (⟨(resumeData cfg s.ctx now data).1, s.pending.eraseIdx index⟩,
        (resumeData cfg s.ctx now data).2) := by
  simp only [handle, h]

end Server

end EdgeLink
