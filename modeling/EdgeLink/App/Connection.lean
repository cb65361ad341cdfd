import Mathlib.Algebra.GroupWithZero.Nat
import Mathlib.Data.List.Basic
import EdgeLink.Foundations.Handle
import EdgeLink.Foundations.Lists
import EdgeLink.Foundations.Run

/-!
# The connection

One client connection: its lifecycle, the resources it holds, and the `start()` bodies that are
suspended at an await. Every await is a suspension: a body goes on at an event of its own, and
calls, socket errors and timers may come in between.

* `LifecycleState`: the lifecycle and its transitions.
* `Pipeline`: the timers of a reliable client pipeline and the sockets of its bonding manager.
* `Connection`: the state, with a `Handle` for each place that refers to timers or sockets.
* `start`, `stop`, `Stage`, `proceed`: the calls, and the body of `start()` from one await to the
  next.
* `handleClientSocketError`, `recoverClientSocket`: socket recovery.
* `helloRetryFired`, `keepaliveFired`: the HELLOs that timers send.
* `step`: the connection as a step function.
-/

namespace EdgeLink

/-! ## The lifecycle -/

/-- The states of a connection. -/
inductive LifecycleState
  | created
  | starting
  | ready
  | recovering
  | stopping
  | stopped
  deriving DecidableEq

namespace LifecycleState

/-- `VALID_TRANSITIONS`. -/
def validTransitions : LifecycleState → List LifecycleState
  | created => [starting, stopped]
  | starting => [ready, stopped]
  | ready => [recovering, stopping, stopped]
  | recovering => [ready, stopping, stopped]
  | stopping => [stopped]
  | stopped => [starting]

/-- The new state, and whether the transition was valid; an invalid one is only logged. -/
def transition (s next : LifecycleState) : LifecycleState × Bool :=
  if next ∈ s.validTransitions then (next, true) else (s, false)

def isShuttingDown (s : LifecycleState) : Bool := s = stopping || s = stopped

end LifecycleState

/-! ## The options -/

/-- The links of a bonded connection. -/
inductive BondingLink
  | primary
  | backup
  deriving DecidableEq

/-- The bonding options: which links are bound to a network interface. -/
structure BondingConfig where
  primaryInterface : Bool
  backupInterface : Bool

def BondingConfig.hasInterface (cfg : BondingConfig) : BondingLink → Bool
  | .primary => cfg.primaryInterface
  | .backup => cfg.backupInterface

/-- The options of a client connection. -/
structure ConnectionOptions where
  /-- `validateSecretKey` accepts the key. -/
  secretKeyValid : Bool
  udpPort : ℤ
  protocolVersion : ℕ
  congestionControl : Bool
  bonding : Option BondingConfig

/-- `validateStartPreconditions` does not throw. -/
def ConnectionOptions.validStart (options : ConnectionOptions) : Bool :=
  options.secretKeyValid && decide (1024 ≤ options.udpPort ∧ options.udpPort ≤ 65535)

/-! ## The pipeline -/

/-- What a reliable client pipeline refers to. -/
structure Pipeline where
  metricsInterval : Handle
  congestionAdjustInterval : Handle
  helloRetryTimer : Handle
  /-- `mut.bondingManager` is set. -/
  bondingManager : Bool
  /-- The link sockets and the health timer of the bonding manager of this pipeline. -/
  primarySocket : Handle
  backupSocket : Handle
  healthCheckTimer : Handle
  deriving DecidableEq

namespace Pipeline

/-- `createPipelineV2Client`. -/
def create : Pipeline :=
  ⟨.empty, .empty, .empty, false, .empty, .empty, .empty⟩

def startMetricsPublishing (p : Pipeline) : Pipeline :=
  { p with metricsInterval := p.metricsInterval.ensure }

def stopMetricsPublishing (p : Pipeline) : Pipeline :=
  { p with metricsInterval := p.metricsInterval.release }

def startCongestionControl (p : Pipeline) : Pipeline :=
  { p with congestionAdjustInterval := p.congestionAdjustInterval.ensure }

def stopCongestionControl (p : Pipeline) : Pipeline :=
  { p with congestionAdjustInterval := p.congestionAdjustInterval.release }

def stopHelloRetry (p : Pipeline) : Pipeline :=
  { p with helloRetryTimer := p.helloRetryTimer.release }

/-- The end of `sendHello`; the timer is set without a look at the old one. -/
def scheduleHelloRetry (stopped helloAcknowledged : Bool) (p : Pipeline) : Pipeline :=
  if helloAcknowledged || stopped then p
  else { p with helloRetryTimer := p.helloRetryTimer.assign 1 }

def linkSocket (p : Pipeline) : BondingLink → Handle
  | .primary => p.primarySocket
  | .backup => p.backupSocket

/-- `dgram.createSocket` for a link. -/
def openLink (p : Pipeline) : BondingLink → Pipeline
  | .primary => { p with primarySocket := p.primarySocket.assign 1 }
  | .backup => { p with backupSocket := p.backupSocket.assign 1 }

/-- The loop of `initialize` over the remaining links, up to the await of `bindLinkInterface` (the
link, and the links after it) or to the end, where health monitoring starts. -/
def initializeManager (cfg : BondingConfig) :
    List BondingLink → Pipeline → Pipeline × Option (BondingLink × List BondingLink)
  | [], p => ({ p with healthCheckTimer := p.healthCheckTimer.ensure }, none)
  | link :: links, p =>
    if cfg.hasInterface link then (p.openLink link, some (link, links))
    else initializeManager cfg links (p.openLink link)

/-- `stop` of the bonding manager. -/
def stopManager (p : Pipeline) : Pipeline :=
  { p with
    primarySocket := p.primarySocket.release
    backupSocket := p.backupSocket.release
    healthCheckTimer := p.healthCheckTimer.release }

def stopBonding (p : Pipeline) : Pipeline :=
  if p.bondingManager then { p.stopManager with bondingManager := false } else p

/-- The catch clause of `initBonding`. -/
def initBondingFailed (p : Pipeline) : Pipeline := { p.stopManager with bondingManager := false }

def stop (p : Pipeline) : Pipeline :=
  p.stopHelloRetry.stopMetricsPublishing.stopCongestionControl.stopBonding

def handles (p : Pipeline) : List Handle :=
  [p.metricsInterval, p.congestionAdjustInterval, p.helloRetryTimer, p.primarySocket,
    p.backupSocket, p.healthCheckTimer]

end Pipeline

/-! ## The state -/

/-- Where a `start()` body is suspended. -/
inductive Stage
  /-- `await initializePersistentStorage` -/
  | storage
  /-- `await loadDeltaTimer` -/
  | timerFile
  /-- `await resolveMonotonicEpoch` -/
  | epochFile
  /-- `await bindLinkInterface(link)` of pipeline `v2`; `links` are the links after it -/
  | bindLink (v2 : ℕ) (link : BondingLink) (links : List BondingLink)
  /-- `await initBonding`, the links of pipeline `v2` being set up -/
  | bonding (v2 : ℕ)
  /-- the send of `sendHello` of pipeline `v2` -/
  | hello (v2 : ℕ)
  /-- `await v2.sendHello` -/
  | helloSent
  /-- `await setupReliableClient` -/
  | reliableClient
  /-- `await handleSubscriptionChange.flush` -/
  | watchers
  /-- `await startClient`, which has returned -/
  | clientStarted
  /-- `await startClient`, which has thrown -/
  | clientThrew
  /-- The body has run to its end. -/
  | done
  deriving DecidableEq

/-- A client connection. -/
structure Connection where
  lifecycle : LifecycleState
  stopped : Bool
  readyToSend : Bool
  socketRecoveryInProgress : Bool
  dedupeCleanupTimer : Handle
  helloMessageSender : Handle
  /-- `state.socketUdp`; the socket manager's own reference changes with it. -/
  socketUdp : Handle
  deltaTimer : Handle
  pingMonitor : Handle
  heartbeatHandle : Handle
  sourceSnapshotTimer : Handle
  configWatcherObjects : Handle
  metaTimer : Handle
  metaSnapshotTimers : Handle
  subscriptionRetryTimer : Handle
  socketRecoveryTimer : Handle
  /-- `state.metaConfig?.enabled` -/
  metaEnabled : Bool
  /-- `enabled` of `state.pendingMetaConfig`, where one is staged -/
  pendingMetaEnabled : Option Bool
  /-- The current subscription generation has been passed to `subscribe`. -/
  subscribed : Bool
  /-- `state.pipeline`, as the number of a pipeline in `pipelines` -/
  pipeline : Option ℕ
  /-- Every pipeline created so far. -/
  pipelines : List Pipeline
  /-- The `start()` bodies, in the order of their calls. -/
  bodies : List Stage
  /-- Pipelines with a `sendHello` that nobody awaits. -/
  hellos : List ℕ

namespace Connection

def new : Connection where
  lifecycle := .created
  stopped := false
  readyToSend := false
  socketRecoveryInProgress := false
  dedupeCleanupTimer := .empty
  helloMessageSender := .empty
  socketUdp := .empty
  deltaTimer := .empty
  pingMonitor := .empty
  heartbeatHandle := .empty
  sourceSnapshotTimer := .empty
  configWatcherObjects := .empty
  metaTimer := .empty
  metaSnapshotTimers := .empty
  subscriptionRetryTimer := .empty
  socketRecoveryTimer := .empty
  metaEnabled := false
  pendingMetaEnabled := none
  subscribed := false
  pipeline := none
  pipelines := []
  bodies := []
  hellos := []

variable (options : ConnectionOptions) (c : Connection)

/-- The socket and the timers of which the connection means to have one at most. -/
def singleHandles : List Handle :=
  [c.dedupeCleanupTimer, c.helloMessageSender, c.socketUdp, c.deltaTimer, c.pingMonitor,
    c.heartbeatHandle, c.sourceSnapshotTimer, c.metaTimer, c.subscriptionRetryTimer,
    c.socketRecoveryTimer]

/-- The handles of the connection itself. -/
def ownHandles : List Handle :=
  c.singleHandles ++ [c.configWatcherObjects, c.metaSnapshotTimers]

/-- Every handle of the connection and of its pipelines. -/
def handles : List Handle := c.ownHandles ++ c.pipelines.flatMap Pipeline.handles

/-- How many resources the connection has created so far. -/
def allocated : ℕ := (c.handles.map Handle.made).sum

def isShuttingDown : Bool := c.lifecycle.isShuttingDown

def transition (next : LifecycleState) : Connection :=
  { c with lifecycle := (c.lifecycle.transition next).1 }

/-- An operation of the pipeline with the given number. -/
def modifyPipeline (v2 : ℕ) (f : Pipeline → Pipeline) : Connection :=
  { c with pipelines := c.pipelines.modify v2 f }

/-- An operation of `state.pipeline`, where there is one. -/
def withPipeline (f : Pipeline → Pipeline) : Connection :=
  match c.pipeline with
  | some v2 => c.modifyPipeline v2 f
  | none => c

/-! ## The calls -/

/-- `start()` up to its first await. -/
def start : Connection :=
  match c.lifecycle.transition .starting with
  | (_, false) => c
  | (lifecycle, true) =>
    if options.validStart then
      { c with
        lifecycle
        stopped := false
        dedupeCleanupTimer := c.dedupeCleanupTimer.restart
        bodies := c.bodies ++ [.storage] }
    else { c with lifecycle := .stopped, stopped := true }

def teardownSession : Connection :=
  { c with
    subscribed := false
    dedupeCleanupTimer := c.dedupeCleanupTimer.release
    socketRecoveryInProgress := false }

def teardownTimers : Connection :=
  { c with
    metaTimer := c.metaTimer.release
    sourceSnapshotTimer := c.sourceSnapshotTimer.release
    metaSnapshotTimers := c.metaSnapshotTimers.release
    metaEnabled := false
    pendingMetaEnabled := none
    deltaTimer := c.deltaTimer.release
    subscriptionRetryTimer := c.subscriptionRetryTimer.release
    socketRecoveryTimer := c.socketRecoveryTimer.release
    configWatcherObjects := c.configWatcherObjects.release }

def teardownPipelines : Connection :=
  { c.withPipeline Pipeline.stop with
    pipeline := none
    heartbeatHandle := c.heartbeatHandle.release }

def teardownMonitoringAndSocket : Connection :=
  { c with
    pingMonitor := c.pingMonitor.release
    socketUdp := c.socketUdp.release }

/-- `services.keepaliveManager.stop` -/
def stopKeepalive : Connection := { c with helloMessageSender := c.helloMessageSender.release }

def stop : Connection :=
  let c := { c with lifecycle := .stopped, stopped := true, readyToSend := false }
  c.teardownSession.stopKeepalive.teardownTimers.teardownPipelines.teardownMonitoringAndSocket

/-! ## The body of `start()` -/

/-- What becomes of the subscription file that `flush` reads. -/
inductive Reload
  /-- The file could not be read or parsed, or has not changed. -/
  | unchanged
  /-- `subscribe` returned; `enabled` is that of the new metadata configuration. -/
  | subscribed (enabled : Bool)
  /-- `subscribe` threw. -/
  | failed (enabled : Bool)
  deriving DecidableEq

/-- What the outside decides about a step of a `start()` body. -/
structure Outcome where
  /-- The awaited operation has failed. -/
  rejected : Bool
  /-- `dgram.createSocket` throws. -/
  createThrows : Bool
  /-- A control packet has arrived since the HELLO. -/
  helloAcknowledged : Bool
  /-- What `flush` finds in the subscription file. -/
  reload : Reload

/-- Nothing out of the ordinary. -/
def Outcome.ordinary : Outcome := ⟨false, false, false, .subscribed false⟩

/-- `restartMetadataTimer` -/
def restartMetadataTimer : Connection :=
  if c.metaEnabled then { c with metaTimer := c.metaTimer.restart }
  else { c with metaTimer := c.metaTimer.release }

/-- `scheduleMetadataSnapshot`, where the metadata stream is enabled: one snapshot is pending. -/
def scheduleMetadataSnapshot : Connection :=
  if c.metaEnabled then { c with metaSnapshotTimers := c.metaSnapshotTimers.release.push } else c

/-- `scheduleSubscriptionRetry` -/
def scheduleSubscriptionRetry : Connection :=
  { c with subscriptionRetryTimer := c.subscriptionRetryTimer.restart }

/-- What `flush` does with the file it has read. -/
def processSubscriptionConfig : Reload → Connection
  | .unchanged => c
  | .subscribed enabled =>
    { c with
      subscriptionRetryTimer := c.subscriptionRetryTimer.release
      subscribed := true
      metaEnabled := enabled }.restartMetadataTimer.scheduleMetadataSnapshot
  | .failed enabled =>
    { c with
      subscriptionRetryTimer := c.subscriptionRetryTimer.release
      subscribed := true
      pendingMetaEnabled := some enabled
      readyToSend := false }.scheduleSubscriptionRetry

/-- `startClient` after the pipeline has been set up. -/
def setupConfigWatchers : Connection × Stage :=
  if c.isShuttingDown then (c, .clientStarted)
  else
    ({ c with
      readyToSend := true
      configWatcherObjects := c.configWatcherObjects.assign 3 }, .watchers)

/-- `initialize` of the bonding manager of pipeline `v2`, over the remaining links. -/
def initializeLinks (v2 : ℕ) (cfg : BondingConfig) (links : List BondingLink) :
    Connection × Stage :=
  (c.modifyPipeline v2 fun p => (p.initializeManager cfg links).1,
    match (c.pipelines[v2]?.getD .create).initializeManager cfg links with
    | (_, some (link, links)) => .bindLink v2 link links
    | (_, none) => .bonding v2)

/-- `setupReliableClient` up to the first await: the pipeline and its timers, the heartbeat, and
the sockets of the bonding manager. -/
def setupReliableClient : Connection × Stage :=
  if c.isShuttingDown then (c, .reliableClient)
  else
    let v2 := c.pipelines.length
    let p := Pipeline.create.startMetricsPublishing
    let p := if options.congestionControl then p.startCongestionControl else p
    let c := { c with
      pipelines := c.pipelines ++ [p]
      pipeline := some v2
      heartbeatHandle := c.heartbeatHandle.assign 1 }
    match options.bonding with
    | none => (c, .bonding v2)
    | some cfg =>
      (c.modifyPipeline v2 fun p => { p with bondingManager := true }).initializeLinks v2 cfg
        [.primary, .backup]

/-- `startClient` from the socket on. -/
def createClient (createThrows : Bool) : Connection × Stage :=
  let c := { c with helloMessageSender := c.helloMessageSender.restart }
  if createThrows then (c, .clientThrew)
  else
    let c := { c with
      socketUdp := c.socketUdp.assign 1
      deltaTimer := c.deltaTimer.restart }
    if 2 ≤ options.protocolVersion then c.setupReliableClient options
    else { c with pingMonitor := c.pingMonitor.assign 1 }.setupConfigWatchers

/-- **The body of `start()`**, from one await to the next. -/
def proceed (o : Outcome) : Stage → Connection × Stage
  | .storage =>
    if o.rejected then (c, .clientThrew)
    else if c.isShuttingDown then (c, .clientStarted)
    else (c, .timerFile)
  | .timerFile => if c.isShuttingDown then (c, .clientStarted) else (c, .epochFile)
  | .epochFile =>
    if c.isShuttingDown then (c, .clientStarted) else c.createClient options o.createThrows
  | .bindLink v2 link links =>
    match options.bonding with
    | none => (c, .bonding v2)
    | some cfg =>
      -- A socket that a `stop()` has closed makes `_attachSocketHandlers` throw.
      if o.rejected || ((c.pipelines[v2]?.getD .create).linkSocket link).held = 0 then
        (c.modifyPipeline v2 Pipeline.initBondingFailed, .bonding v2)
      else c.initializeLinks v2 cfg links
  | .bonding v2 =>
    if c.isShuttingDown then (c, .reliableClient)
    else (c.modifyPipeline v2 Pipeline.stopHelloRetry, .hello v2)
  | .hello v2 =>
    (c.modifyPipeline v2 (Pipeline.scheduleHelloRetry c.stopped o.helloAcknowledged), .helloSent)
  | .helloSent =>
    -- Nothing is checked here: neither the lifecycle nor `state.stopped`.
    ({ c with sourceSnapshotTimer := c.sourceSnapshotTimer.restart }, .reliableClient)
  | .reliableClient => c.setupConfigWatchers
  | .watchers =>
    if c.stopped then (c, .clientStarted)
    else (c.processSubscriptionConfig o.reload, .clientStarted)
  | .clientStarted =>
    if c.isShuttingDown then (c, .done)
    else ({ c.transition .ready with readyToSend := true }, .done)
  | .clientThrew => (c.stop, .done)
  | .done => (c, .done)

/-- The body with the given number goes on. -/
def resume (i : ℕ) (o : Outcome) : Connection :=
  match c.bodies[i]? with
  | none => c
  | some stage =>
    let next := c.proceed options o stage
    { next.1 with bodies := c.bodies.set i next.2 }

/-! ## Socket recovery -/

/-- How an attempt to recover the socket goes. -/
inductive Attempt
  | succeeds
  /-- `dgram.createSocket` throws. -/
  | createThrows
  /-- The pipeline cannot be rearmed on the new socket. -/
  | rearmThrows
  deriving DecidableEq

/-- `handleClientSocketError` -/
def handleClientSocketError : Connection :=
  if c.socketRecoveryInProgress || c.isShuttingDown then c
  else
    let c := { c with readyToSend := false, socketRecoveryInProgress := true }
    let c := c.withPipeline fun p => p.stopMetricsPublishing.stopCongestionControl
    let c := { c with heartbeatHandle := c.heartbeatHandle.release }.transition .recovering
    let c := { c with socketUdp := c.socketUdp.release }
    if c.isShuttingDown then c
    else { c with socketRecoveryTimer := c.socketRecoveryTimer.assign 1 }

/-- `rearmPipeline`: the HELLO is sent, and nobody awaits it. -/
def rearmPipeline : Connection :=
  match c.pipeline with
  | none => c
  | some v2 =>
    let c := c.modifyPipeline v2 fun p =>
      let p := p.startMetricsPublishing
      (if options.congestionControl then p.startCongestionControl else p).stopHelloRetry
    { c with
      heartbeatHandle := c.heartbeatHandle.assign 1
      hellos := c.hellos ++ [v2] }

/-- The catch clause of `recoverClientSocket`, with `dropSocket` and `scheduleRetry`. -/
def recoveryFailed : Connection :=
  let c := { c with socketUdp := c.socketUdp.release }
  if c.isShuttingDown then { c with socketRecoveryInProgress := false }
  else { c with socketRecoveryTimer := c.socketRecoveryTimer.assign 1 }

/-- `recoverClientSocket` -/
def recoverClientSocket : Attempt → Connection
  | .createThrows => c.recoveryFailed
  | .rearmThrows => { c with socketUdp := c.socketUdp.assign 1 }.recoveryFailed
  | .succeeds =>
    let c := { c with socketUdp := c.socketUdp.assign 1 }.rearmPipeline options
    { c with socketRecoveryInProgress := false, readyToSend := true }.transition .ready
      |>.scheduleMetadataSnapshot

/-- The recovery timer fires. -/
def recoveryTimerFired (attempt : Attempt) : Connection :=
  let c := { c with socketRecoveryTimer := c.socketRecoveryTimer.fire }
  if c.isShuttingDown then { c with socketRecoveryInProgress := false }
  else c.recoverClientSocket options attempt

/-! ## The subscription -/

/-- The error callback of the current subscription. -/
def subscriptionErrorHandler : Connection :=
  if c.stopped then c
  else
    let c := { c with readyToSend := false }
    if c.subscriptionRetryTimer.held = 0 then c.scheduleSubscriptionRetry else c

/-- The metadata configuration that a failed `subscribe` has staged takes effect. -/
def commitPendingMeta : Connection :=
  match c.pendingMetaEnabled with
  | none => c
  | some enabled =>
    { c with
      metaEnabled := enabled
      pendingMetaEnabled := none }.restartMetadataTimer.scheduleMetadataSnapshot

/-- `runSubscriptionRetry` -/
def runSubscriptionRetry (throws : Bool) : Connection :=
  let c := { c with subscriptionRetryTimer := c.subscriptionRetryTimer.fire }
  if c.stopped then c
  else
    let c := { c with subscribed := true }
    if throws then c.scheduleSubscriptionRetry
    else
      let c := c.commitPendingMeta
      if c.socketRecoveryInProgress || c.stopped then c else { c with readyToSend := true }

/-! ## Periodic HELLOs -/

/-- The retry timer of pipeline `v2` fires, and the HELLO is sent again; nobody awaits it. -/
def helloRetryFired (v2 : ℕ) (helloAcknowledged : Bool) : Connection :=
  let c := c.modifyPipeline v2 fun p => { p with helloRetryTimer := p.helloRetryTimer.fire }
  if helloAcknowledged || c.stopped then c else { c with hellos := c.hellos ++ [v2] }

/-- The interval of the keepalive fires; `idle` says that no packet has been sent for its length.
Nobody awaits the HELLO that it sends. -/
def keepaliveFired (idle : Bool) : Connection :=
  if c.stopped then c.stopKeepalive
  else if c.readyToSend && idle then
    match c.pipeline with
    | some v2 =>
      { c.modifyPipeline v2 Pipeline.stopHelloRetry with hellos := c.hellos ++ [v2] }
    -- The empty delta of version 1 leaves nothing behind.
    | none => c
  else c

/-! ## The step function -/

/-- What happens to a connection. -/
inductive Event
  | start
  | stop
  /-- The body with the given number goes on. -/
  | resume (i : ℕ) (o : Outcome)
  /-- A socket of the connection emits an error. -/
  | socketError
  | recoveryTimer (attempt : Attempt)
  /-- A `sendHello` that nobody awaits has sent its packet. -/
  | helloSent (k : ℕ) (helloAcknowledged : Bool)
  /-- The HELLO retry timer of pipeline `v2`. -/
  | helloRetry (v2 : ℕ) (helloAcknowledged : Bool)
  | keepalive (idle : Bool)
  | subscriptionError
  | subscriptionRetry (throws : Bool)

/-- One event. A timer that is not armed does not fire, and a socket error comes from a live
socket. -/
def step : Event → Connection
  | .start => c.start options
  | .stop => c.stop
  | .resume i o => c.resume options i o
  | .socketError => if c.socketUdp.live = 0 then c else c.handleClientSocketError
  | .recoveryTimer attempt =>
    if c.socketRecoveryTimer.live = 0 then c else c.recoveryTimerFired options attempt
  | .helloSent k helloAcknowledged =>
    match c.hellos[k]? with
    | none => c
    | some v2 =>
      { c.modifyPipeline v2 (Pipeline.scheduleHelloRetry c.stopped helloAcknowledged) with
        hellos := c.hellos.eraseIdx k }
  | .helloRetry v2 helloAcknowledged =>
    if (c.pipelines[v2]?.getD .create).helloRetryTimer.live = 0 then c
    else c.helloRetryFired v2 helloAcknowledged
  | .keepalive idle => if c.helloMessageSender.live = 0 then c else c.keepaliveFired idle
  | .subscriptionError => if c.subscribed then c.subscriptionErrorHandler else c
  | .subscriptionRetry throws =>
    if c.subscriptionRetryTimer.live = 0 then c else c.runSubscriptionRetry throws

end Connection

end EdgeLink
