import EdgeLink.Foundations.OrderedMap
import EdgeLink.Foundations.Run
import Mathlib.Data.Rat.Defs
import Mathlib.Algebra.Order.Ring.Rat

/-!
# Two bonded links

The bonding manager of `transport/bonding.ts` and `transport/bonding-health.ts`, after
`initialize`: two links, of which one is active, a health check that sends heartbeats, marks a
silent link as down and decides on a failover or a failback, and the recovery of a socket after
an error. Every `Date.now()` is a reading of the clock that an event brings along. Arithmetic on
doubles is exact arithmetic followed by a rounding, a parameter.

* `measureLinkHealth_status`, `status_failover`, `status_failback`: what each operation does to the
  status of a link.
* `bonding_statuses`: the active link is active or down, the other is on standby or down, and a
  link comes back by a heartbeat or a recovery only, exactly while no socket of the active link
  is recovered and no switch touches a link that is down.
* `recovered_on_standby`: the recovery that leaves the active link on standby.
-/

namespace EdgeLink

/-- The names of the two links. -/
inductive LinkName
  | primary
  | backup
  deriving DecidableEq

inductive LinkStatus
  | unknown
  | active
  | standby
  | down
  deriving DecidableEq

structure FailoverThresholds where
  rttThreshold : ℚ := 500
  lossThreshold : ℚ := 1 / 10
  failbackDelay : Time := 30000
  heartbeatTimeout : Time := 5000

structure LinkHealth where
  rtt : ℚ := 0
  loss : ℚ := 0
  status : LinkStatus := .unknown

/-- The number of heartbeat outcomes the loss is computed of. -/
def BONDING_HEALTH_WINDOW_SIZE : ℕ := 10

/-- How long the primary link stays active before degradation makes it fail over. -/
def BONDING_FAILOVER_MIN_DWELL : Time := 5000

/-- The rounding of double precision arithmetic. -/
abbrev Rounding := ℚ → ℚ

namespace Rounding

variable (fl : Rounding)

def BONDING_RTT_EMA_ALPHA : ℚ := fl (1 / 5)

def BONDING_FAILBACK_RTT_HYSTERESIS : ℚ := fl (4 / 5)

def BONDING_FAILBACK_LOSS_HYSTERESIS : ℚ := fl (1 / 2)

end Rounding

/-- A link, after its socket has been created. -/
structure LinkState where
  /-- the link is bound to an interface -/
  interface : Bool := false
  /-- it has a socket -/
  socket : Bool := true
  health : LinkHealth := {}
  heartbeatSeq : ℕ := 0
  /-- the heartbeats without a response, with the times they were sent -/
  pendingHeartbeats : OrderedMap ℕ Time := .empty
  heartbeatResponses : ℕ := 0
  heartbeatsSent : ℕ := 0
  /-- the last outcomes, oldest first: whether a response came -/
  lossSamples : List Bool := []
  lastHeartbeatResponse : Time := 0
  /-- the recovery timer is armed -/
  recoveryTimer : Bool := false
  /-- the socket waits to be bound to the interface -/
  binding : Bool := false

namespace LinkState

def withStatus (link : LinkState) (status : LinkStatus) : LinkState :=
  { link with health := { link.health with status := status } }

@[simp] theorem status_withStatus (link : LinkState) (status : LinkStatus) :
    (link.withStatus status).health.status = status := rfl

/-- Push a heartbeat outcome into the window. -/
def pushLoss (samples : List Bool) (received : Bool) : List Bool :=
  (samples ++ [received]).drop (samples.length + 1 - BONDING_HEALTH_WINDOW_SIZE)

/-- Take out the heartbeats that are older than `timeout`, each of them a loss. -/
def expirePendingHeartbeats (link : LinkState) (now timeout : Time) : LinkState :=
  let expired := link.pendingHeartbeats.entries.filter fun p => timeout < now - p.2
  { link with
    pendingHeartbeats := link.pendingHeartbeats.filter fun _ sent => ¬ timeout < now - sent
    lossSamples := expired.foldl (fun samples _ => pushLoss samples false) link.lossSamples }

/-- The share of heartbeats without a response, if there were any. -/
def computeLossRatio (fl : Rounding) (link : LinkState) : Option ℚ :=
  if 0 < link.lossSamples.length then
    some (max 0 (min 1 (fl (1 - fl (link.lossSamples.count true / link.lossSamples.length)))))
  else if 0 < link.heartbeatsSent then
    some (max 0 (min 1 (fl (1 - fl (link.heartbeatResponses / link.heartbeatsSent)))))
  else none

def updateLinkMetrics (fl : Rounding) (link : LinkState) : LinkState :=
  match link.computeLossRatio fl with
  | some loss => { link with health := { link.health with loss := loss } }
  | none => link

/-- A link that has sent some heartbeats and had no response within `timeout` is down. -/
def maybeMarkLinkDown (link : LinkState) (timestamp timeout : Time) : LinkState :=
  if 3 < link.heartbeatsSent ∧ timeout < timestamp - link.lastHeartbeatResponse ∧
      link.health.status ≠ .down then
    link.withStatus .down
  else link

/-- Send a heartbeat and evaluate the responses so far. -/
def measureLinkHealth (fl : Rounding) (link : LinkState) (timestamp timeout : Time) : LinkState :=
  if link.socket then
    let link := { link with
      heartbeatSeq := link.heartbeatSeq + 1
      pendingHeartbeats := link.pendingHeartbeats.set link.heartbeatSeq timestamp
      heartbeatsSent := link.heartbeatsSent + 1 }
    ((link.expirePendingHeartbeats timestamp timeout).updateLinkMetrics fl).maybeMarkLinkDown
      timestamp timeout
  else link

/-- The moving average of the round-trip time, which starts with the first sample. -/
def updateRttEma (fl : Rounding) (currentRtt sampleRtt : ℚ) : ℚ :=
  if currentRtt = 0 then sampleRtt
  else fl (fl (fl.BONDING_RTT_EMA_ALPHA * sampleRtt) +
    fl (fl (1 - fl.BONDING_RTT_EMA_ALPHA) * currentRtt))

/-- Record the response to a heartbeat; a link that was down is up again. -/
def recordHeartbeatRtt (fl : Rounding) (link : LinkState) (seq : ℕ) (rtt : Time) (now : Time)
    (isActive : Bool) : LinkState :=
  { link with
    pendingHeartbeats := link.pendingHeartbeats.delete seq
    heartbeatResponses := link.heartbeatResponses + 1
    lastHeartbeatResponse := now
    lossSamples := pushLoss link.lossSamples true
    health := { link.health with
      rtt := updateRttEma fl link.health.rtt rtt
      status := if link.health.status = .down then (if isActive then .active else .standby)
        else link.health.status } }

/-- Recreate the socket: `created` says whether that succeeds. A link with an interface comes back
when it is bound, any other at once. -/
def recreateLinkSocket (link : LinkState) (created : Bool) : LinkState :=
  if created then
    if link.interface then { link with socket := true, binding := true }
    else { link with socket := true }.withStatus .standby
  else { link with binding := false }.withStatus .down

end LinkState

/-- The readings of the clock in one health check: one for each link, one for each decision and
one in the switch that follows. -/
structure Readings where
  primary : Time
  backup : Time
  failover : Time
  failback : Time
  switch : Time
  deriving DecidableEq

/-- An automatic switch of the active link, with what it was decided on. -/
structure Switch where
  /-- the link that becomes active -/
  target : LinkName
  /-- the reading the decision was made on -/
  decided : Time
  /-- the reading that was recorded for the switch -/
  recorded : Time
  primary : LinkHealth
  backup : LinkHealth
  thresholds : FailoverThresholds

structure BondingManager where
  primary : LinkState
  backup : LinkState
  activeLink : LinkName := .primary
  failoverThresholds : FailoverThresholds := {}
  lastFailoverTime : Time := 0
  lastFailbackTime : Time
  /-- the health check runs -/
  healthCheckTimer : Bool := true
  stopped : Bool := false
  /-- the latest reading of the clock -/
  clock : Time
  /-- the automatic switches, oldest first -/
  switches : List Switch := []

inductive BondingEvent
  /-- the periodic health check -/
  | checkHealth (readings : Readings)
  /-- a valid response to a heartbeat, with the two readings taken for it -/
  | heartbeatResponse (link : LinkName) (seq : ℕ) (sentNow now : Time)
  | socketError (link : LinkName)
  /-- the socket of a link cannot be bound to the interface -/
  | bindFailed (link : LinkName)
  /-- the recovery timer of a link fires, and its socket can be created or not -/
  | recoveryTimer (link : LinkName) (created : Bool)
  /-- the socket of a link is bound to the interface -/
  | bound (link : LinkName)
  | forceFailover (now : Time)
  | setThresholds (thresholds : FailoverThresholds)
  | stop

namespace BondingManager

/-- The manager after `initialize` at a time: the primary link is active. -/
def initialized (primaryInterface backupInterface : Bool) (thresholds : FailoverThresholds)
    (now : Time) : BondingManager where
  primary := LinkState.withStatus { interface := primaryInterface } .active
  backup := LinkState.withStatus { interface := backupInterface } .standby
  failoverThresholds := thresholds
  lastFailbackTime := now
  clock := now

def link (m : BondingManager) : LinkName → LinkState
  | .primary => m.primary
  | .backup => m.backup

def setLink (m : BondingManager) : LinkName → LinkState → BondingManager
  | .primary, link => { m with primary := link }
  | .backup, link => { m with backup := link }

/-- The status of a link. -/
def status (m : BondingManager) (name : LinkName) : LinkStatus := (m.link name).health.status

/-- The primary link fails over to the backup link when it is down, or degraded after some time,
unless the backup link is down itself. -/
def shouldFailover (m : BondingManager) (now : Time) : Bool :=
  if m.activeLink ≠ .primary then false
  else if m.backup.health.status = .down then false
  else if m.primary.health.status = .down then true
  else if now - m.lastFailbackTime < BONDING_FAILOVER_MIN_DWELL then false
  else m.failoverThresholds.rttThreshold < m.primary.health.rtt ∨
    m.failoverThresholds.lossThreshold < m.primary.health.loss

/-- The backup link falls back to the primary link after the delay, when the primary link is not
down and much better than the thresholds. -/
def shouldFailback (fl : Rounding) (m : BondingManager) (now : Time) : Bool :=
  if m.activeLink ≠ .backup then false
  else if now - m.lastFailoverTime < m.failoverThresholds.failbackDelay then false
  else if m.primary.health.status = .down then false
  else m.primary.health.rtt <
      fl (m.failoverThresholds.rttThreshold * fl.BONDING_FAILBACK_RTT_HYSTERESIS) ∧
    m.primary.health.loss <
      fl (m.failoverThresholds.lossThreshold * fl.BONDING_FAILBACK_LOSS_HYSTERESIS)

/-- Make the backup link active. -/
def failover (m : BondingManager) (now : Time) : BondingManager :=
  if m.activeLink = .backup then m
  else { m with
    activeLink := .backup
    primary := m.primary.withStatus
      (if m.primary.health.status = .down then .down else .standby)
    backup := m.backup.withStatus .active
    lastFailoverTime := now }

/-- Make the primary link active. -/
def failback (m : BondingManager) (now : Time) : BondingManager :=
  if m.activeLink = .primary then m
  else { m with
    activeLink := .primary
    primary := m.primary.withStatus .active
    backup := m.backup.withStatus .standby
    lastFailbackTime := now }

/-- The two measurements of a health check. -/
def measured (fl : Rounding) (m : BondingManager) (r : Readings) : BondingManager :=
  { m with
    primary := m.primary.measureLinkHealth fl r.primary m.failoverThresholds.heartbeatTimeout
    backup := m.backup.measureLinkHealth fl r.backup m.failoverThresholds.heartbeatTimeout }

/-- The record of an automatic switch to `target`. -/
def switchTo (m : BondingManager) (target : LinkName) (decided recorded : Time) : Switch :=
  ⟨target, decided, recorded, m.primary.health, m.backup.health, m.failoverThresholds⟩

def logSwitch (m : BondingManager) (target : LinkName) (decided recorded : Time) : BondingManager :=
  { m with switches := m.switches ++ [m.switchTo target decided recorded] }

def checkHealth (fl : Rounding) (m : BondingManager) (r : Readings) : BondingManager :=
  let m := m.measured fl r
  if m.shouldFailover r.failover then (m.logSwitch .backup r.failover r.switch).failover r.switch
  else if m.shouldFailback fl r.failback then
    (m.logSwitch .primary r.failback r.switch).failback r.switch
  else m

/-- The error handler of a link's socket: the link is down, and a recovery is due. -/
def socketError (m : BondingManager) (name : LinkName) (binding : Bool) : BondingManager :=
  let link := { m.link name with binding := binding }.withStatus .down
  m.setLink name { link with recoveryTimer := if m.stopped then link.recoveryTimer else true }

def step (fl : Rounding) (m : BondingManager) : BondingEvent → BondingManager
  | .checkHealth r =>
    if m.healthCheckTimer then { m.checkHealth fl r with clock := r.switch } else m
  | .heartbeatResponse name seq sentNow now =>
    match (m.link name).pendingHeartbeats.get? seq with
    | none => m
    | some sendTime => { m.setLink name ((m.link name).recordHeartbeatRtt fl seq
        (sentNow - sendTime) now (m.activeLink = name)) with clock := now }
  | .socketError name => m.socketError name (m.link name).binding
  | .bindFailed name => if (m.link name).binding then m.socketError name false else m
  | .recoveryTimer name created =>
    if (m.link name).recoveryTimer then
      let link := { m.link name with recoveryTimer := false }
      if m.stopped then m.setLink name link
      else m.setLink name (link.recreateLinkSocket created)
    else m
  | .bound name =>
    if (m.link name).binding then
      m.setLink name ({ m.link name with binding := false }.withStatus .standby)
    else m
  | .forceFailover now =>
    if m.activeLink = .primary then { m.failover now with clock := now }
    else { m.failback now with clock := now }
  | .setThresholds thresholds => { m with failoverThresholds := thresholds }
  | .stop =>
    let close (link : LinkState) : LinkState :=
      { link with
        recoveryTimer := false
        socket := false
        binding := false
        pendingHeartbeats := .empty
        lossSamples := [] }
    { m with
      stopped := true
      healthCheckTimer := false
      primary := close m.primary
      backup := close m.backup }

/-! ## What is written to a status -/

section Status

variable {fl : Rounding} {m : BondingManager} {n name : LinkName}

@[simp] theorem link_setLink_self (m : BondingManager) (name : LinkName) (link : LinkState) :
    (m.setLink name link).link name = link := by
  cases name <;> rfl

theorem link_setLink_of_ne (m : BondingManager) (h : n ≠ name) (link : LinkState) :
    (m.setLink name link).link n = m.link n := by
  cases name <;> cases n <;> first | rfl | exact absurd rfl h

@[simp] theorem activeLink_setLink (m : BondingManager) (name : LinkName) (link : LinkState) :
    (m.setLink name link).activeLink = m.activeLink := by
  cases name <;> rfl

theorem status_setLink (m : BondingManager) (name n : LinkName) (link : LinkState) :
    (m.setLink name link).status n = if n = name then link.health.status else m.status n := by
  unfold status
  split_ifs with h
  · rw [h, link_setLink_self]
  · rw [link_setLink_of_ne m h]

/-- A measurement leaves the status or marks the link as down. -/
theorem measureLinkHealth_status (fl : Rounding) (link : LinkState) (timestamp timeout : Time) :
    (link.measureLinkHealth fl timestamp timeout).health.status = link.health.status ∨
      (link.measureLinkHealth fl timestamp timeout).health.status = .down := by
  have hmark : ∀ l : LinkState, (l.maybeMarkLinkDown timestamp timeout).health.status =
      l.health.status ∨ (l.maybeMarkLinkDown timestamp timeout).health.status = .down := by
    intro l
    unfold LinkState.maybeMarkLinkDown
    split_ifs
    · exact Or.inr rfl
    · exact Or.inl rfl
  have hmetrics : ∀ l : LinkState, (l.updateLinkMetrics fl).health.status = l.health.status := by
    intro l
    unfold LinkState.updateLinkMetrics
    split <;> rfl
  unfold LinkState.measureLinkHealth
  split_ifs
  · refine (hmark _).imp_left fun h => h.trans ?_
    rw [hmetrics]
    rfl
  · exact Or.inl rfl

theorem measured_status (fl : Rounding) (m : BondingManager) (r : Readings) (n : LinkName) :
    (m.measured fl r).status n = m.status n ∨ (m.measured fl r).status n = .down := by
  cases n
  · exact measureLinkHealth_status fl m.primary _ _
  · exact measureLinkHealth_status fl m.backup _ _

@[simp] theorem activeLink_measured (fl : Rounding) (m : BondingManager) (r : Readings) :
    (m.measured fl r).activeLink = m.activeLink := rfl

/-- The status of a link after a failover. -/
theorem status_failover (h : m.activeLink = .primary) (now : Time) :
    (m.failover now).activeLink = .backup ∧
      (m.failover now).status .primary = (if m.status .primary = .down then .down else .standby) ∧
      (m.failover now).status .backup = .active := by
  unfold failover
  rw [if_neg (by rw [h]; nofun)]
  exact ⟨rfl, rfl, rfl⟩

/-- The status of a link after a failback. -/
theorem status_failback (h : m.activeLink = .backup) (now : Time) :
    (m.failback now).activeLink = .primary ∧ (m.failback now).status .primary = .active ∧
      (m.failback now).status .backup = .standby := by
  unfold failback
  rw [if_neg (by rw [h]; nofun)]
  exact ⟨rfl, rfl, rfl⟩

/-- What a failover does beside the statuses. -/
theorem failover_frame (h : m.activeLink = .primary) (now : Time) :
    (m.failover now).lastFailoverTime = now ∧
      (m.failover now).lastFailbackTime = m.lastFailbackTime ∧
      (m.failover now).switches = m.switches := by
  unfold failover
  rw [if_neg (by rw [h]; nofun)]
  exact ⟨rfl, rfl, rfl⟩

/-- What a failback does beside the statuses. -/
theorem failback_frame (h : m.activeLink = .backup) (now : Time) :
    (m.failback now).lastFailbackTime = now ∧ (m.failback now).switches = m.switches := by
  unfold failback
  rw [if_neg (by rw [h]; nofun)]
  exact ⟨rfl, rfl⟩

theorem shouldFailover_spec {now : Time} (h : m.shouldFailover now = true) :
    m.activeLink = .primary ∧ m.status .backup ≠ .down ∧ (m.status .primary = .down ∨
      (BONDING_FAILOVER_MIN_DWELL ≤ now - m.lastFailbackTime ∧
        (m.failoverThresholds.rttThreshold < m.primary.health.rtt ∨
          m.failoverThresholds.lossThreshold < m.primary.health.loss))) := by
  unfold shouldFailover at h
  split_ifs at h with hactive hbackup hprimary hdwell
  · exact ⟨not_not.1 hactive, hbackup, Or.inl hprimary⟩
  · exact ⟨not_not.1 hactive, hbackup, Or.inr ⟨not_lt.1 hdwell, of_decide_eq_true h⟩⟩

theorem shouldFailback_spec {now : Time} (h : m.shouldFailback fl now = true) :
    m.activeLink = .backup ∧
      m.failoverThresholds.failbackDelay ≤ now - m.lastFailoverTime ∧
      m.status .primary ≠ .down ∧
      m.primary.health.rtt <
        fl (m.failoverThresholds.rttThreshold * fl.BONDING_FAILBACK_RTT_HYSTERESIS) ∧
      m.primary.health.loss <
        fl (m.failoverThresholds.lossThreshold * fl.BONDING_FAILBACK_LOSS_HYSTERESIS) := by
  unfold shouldFailback at h
  split_ifs at h with hactive hdelay hprimary
  exact ⟨not_not.1 hactive, not_lt.1 hdelay, hprimary, of_decide_eq_true h⟩

end Status

/-! ## The statuses over a run -/

/-- The active link is active or down, the other one is on standby or down. -/
def Statuses (m : BondingManager) : Prop :=
  (m.status m.activeLink = .active ∨ m.status m.activeLink = .down) ∧
    ∀ n, n ≠ m.activeLink → m.status n = .standby ∨ m.status n = .down

/-- A link that is down stays down. -/
def StaysDown (m m' : BondingManager) (n : LinkName) : Prop :=
  m.status n = .down → m'.status n = .down

/-- In a step a link that is down comes back only by a response to its heartbeat or by a recovery
of its socket that succeeds. In a health check this holds of the switch by itself, too. -/
def RevivedOnly (fl : Rounding) (m : BondingManager) : BondingEvent → Prop
  | .checkHealth r => m.healthCheckTimer = true →
      ∀ n, StaysDown m (m.measured fl r) n ∧
        StaysDown (m.measured fl r) (m.step fl (.checkHealth r)) n
  | .heartbeatResponse name seq sentNow now =>
      ∀ n ≠ name, StaysDown m (m.step fl (.heartbeatResponse name seq sentNow now)) n
  | .recoveryTimer name created =>
      -- a socket with an interface has recovered only once it is bound
      ∀ n, n ≠ name ∨ created = false ∨ (m.link name).interface = true →
        StaysDown m (m.step fl (.recoveryTimer name created)) n
  | .bound name => ∀ n ≠ name, StaysDown m (m.step fl (.bound name)) n
  | ev => ∀ n, StaysDown m (m.step fl ev) n

/-- No socket of the active link is recovered, and no switch changes the status of a link that is
down. -/
def Careful (fl : Rounding) (m : BondingManager) : BondingEvent → Prop
  | .checkHealth r => m.healthCheckTimer = true →
      (m.measured fl r).shouldFailover r.failover = false →
      (m.measured fl r).shouldFailback fl r.failback = true →
      (m.measured fl r).status .backup ≠ .down
  | .recoveryTimer name created => (m.link name).recoveryTimer = true → m.stopped = false →
      created = true → (m.link name).interface = false → name ≠ m.activeLink
  | .bound name => (m.link name).binding = true → name ≠ m.activeLink
  | .forceFailover _ => m.status .backup ≠ .down ∧
      (m.activeLink = .backup → m.status .primary ≠ .down)
  | _ => True

section Run

variable {fl : Rounding} {m m' : BondingManager} {n name : LinkName}

theorem Statuses.of_eq (h : m.Statuses) (hactive : m'.activeLink = m.activeLink)
    (hstatus : ∀ n, m'.status n = m.status n ∨ m'.status n = .down) : m'.Statuses := by
  unfold Statuses
  rw [hactive]
  constructor
  · rcases hstatus m.activeLink with hs | hs
    · rw [hs]
      exact h.1
    · exact Or.inr hs
  · intro n hn
    rcases hstatus n with hs | hs
    · rw [hs]
      exact h.2 n hn
    · exact Or.inr hs

/-- A step that writes one link only keeps the others' statuses. -/
theorem Statuses.setLink (h : m.Statuses) {link : LinkState}
    (hlink : (name = m.activeLink → link.health.status = .active ∨ link.health.status = .down) ∧
      (name ≠ m.activeLink → link.health.status = .standby ∨ link.health.status = .down)) :
    (m.setLink name link).Statuses := by
  unfold Statuses
  rw [activeLink_setLink, status_setLink]
  constructor
  · split_ifs with hn
    · exact hlink.1 hn.symm
    · exact h.1
  · intro n hn
    rw [status_setLink]
    split_ifs with hname
    · exact hlink.2 (hname ▸ hn)
    · exact h.2 n hn

theorem staysDown_setLink (link : LinkState)
    (h : n = name → m.status name = .down → link.health.status = .down) :
    StaysDown m (m.setLink name link) n := by
  intro hn
  rw [status_setLink]
  split_ifs with hname
  · exact h hname (hname ▸ hn)
  · exact hn

theorem staysDown_of_eq (hstatus : ∀ n, m'.status n = m.status n ∨ m'.status n = .down) :
    StaysDown m m' n := by
  intro hn
  rcases hstatus n with hs | hs
  · rw [hs, hn]
  · exact hs

/-- Writing standby to a link is sound exactly when it is not the active one. -/
theorem statuses_standby_iff (h : m.Statuses) (link : LinkState)
    (hlink : link.health.status = .standby) :
    (m.setLink name link).Statuses ↔ name ≠ m.activeLink := by
  constructor
  · rintro hs rfl
    have := hs.1
    rw [activeLink_setLink, status_setLink, if_pos rfl, hlink] at this
    rcases this with h | h <;> nomatch h
  · intro hne
    exact h.setLink ⟨fun heq => absurd heq hne, fun _ => Or.inl hlink⟩

end Run

section Events

variable {fl : Rounding} {m : BondingManager}

/-- Everything of a status, active link and links, that a reading of the clock leaves alone. -/
theorem Statuses.clock (m : BondingManager) (now : Time) :
    ({ m with clock := now } : BondingManager).Statuses ↔ m.Statuses := by
  constructor <;> exact fun h => ⟨h.1, h.2⟩

/-- The switch of a health check. -/
theorem checkHealth_iff (h : m.Statuses) (r : Readings) (htimer : m.healthCheckTimer = true) :
    (m.step fl (.checkHealth r)).Statuses ∧ m.RevivedOnly fl (.checkHealth r) ↔
      m.Careful fl (.checkHealth r) := by
  have hmeas := h.of_eq (activeLink_measured fl m r) (measured_status fl m r)
  have hdown : ∀ n, StaysDown m (m.measured fl r) n := fun n =>
    staysDown_of_eq (measured_status fl m r)
  have hstep : m.step fl (.checkHealth r) = { m.checkHealth fl r with clock := r.switch } := by
    simp only [step, htimer, if_true]
  simp only [RevivedOnly, Careful, htimer, forall_true_left, hstep, Statuses.clock]
  generalize hm' : m.measured fl r = m' at hmeas hdown
  have hcheck : m.checkHealth fl r =
      if m'.shouldFailover r.failover then
        (m'.logSwitch .backup r.failover r.switch).failover r.switch
      else if m'.shouldFailback fl r.failback then
        (m'.logSwitch .primary r.failback r.switch).failback r.switch
      else m' := by
    rw [checkHealth, hm']
  rw [hcheck]
  split_ifs with hover hback
  · -- a failover goes to a backup link that is not down, and keeps a primary link that is
    obtain ⟨hactive, hbackup, -⟩ := shouldFailover_spec hover
    obtain ⟨ha, hp, hb⟩ := status_failover (m := m'.logSwitch .backup r.failover r.switch) hactive
      r.switch
    refine iff_of_true ⟨⟨?_, ?_⟩, fun n => ⟨hdown n, ?_⟩⟩ fun hno => absurd hover (by simp [hno])
    · rw [ha, hb]
      exact Or.inl rfl
    · intro n hn
      rw [ha] at hn
      cases n
      · rw [hp]
        split_ifs
        · exact Or.inr rfl
        · exact Or.inl rfl
      · exact absurd rfl hn
    · cases n
      · intro hd
        have hd : (m'.logSwitch .backup r.failover r.switch).status .primary = .down := hd
        show ((m'.logSwitch .backup r.failover r.switch).failover r.switch).status .primary = .down
        rw [hp, if_pos hd]
      · exact fun hd => absurd hd hbackup
  · -- a failback is decided for a primary link that is not down
    obtain ⟨hactive, -, hprimary, -⟩ := shouldFailback_spec hback
    obtain ⟨ha, hp, hb⟩ := status_failback (m := m'.logSwitch .primary r.failback r.switch) hactive
      r.switch
    constructor
    · rintro ⟨-, hrev⟩ - - hd
      have hstay : ((m'.logSwitch .primary r.failback r.switch).failback r.switch).status .backup =
          .down := (hrev .backup).2 hd
      rw [hb] at hstay
      nomatch hstay
    · intro hcare
      have hbackup := hcare (by simpa using hover) hback
      refine ⟨⟨?_, ?_⟩, fun n => ⟨hdown n, ?_⟩⟩
      · rw [ha, hp]
        exact Or.inl rfl
      · intro n hn
        rw [ha] at hn
        cases n
        · exact absurd rfl hn
        · rw [hb]
          exact Or.inl rfl
      · cases n
        · exact fun hd => absurd hd hprimary
        · exact fun hd => absurd hd hbackup
  · exact iff_of_true ⟨hmeas, fun n => ⟨hdown n, fun hd => hd⟩⟩ fun _ hb => absurd hb hback

theorem forceFailover_iff (m : BondingManager) (now : Time) :
    (m.step fl (.forceFailover now)).Statuses ∧ m.RevivedOnly fl (.forceFailover now) ↔
      m.Careful fl (.forceFailover now) := by
  simp only [RevivedOnly, Careful, step]
  cases hactive : m.activeLink with
  | primary =>
    obtain ⟨ha, hp, hb⟩ := status_failover hactive now
    simp only [if_true, Statuses.clock, reduceCtorEq, false_implies, and_true]
    constructor
    · rintro ⟨-, hrev⟩ hd
      have hstay : (m.failover now).status .backup = .down := hrev .backup hd
      rw [hb] at hstay
      nomatch hstay
    · intro hbackup
      refine ⟨⟨ha ▸ Or.inl hb, fun n hn => ?_⟩, fun n hd => ?_⟩
      · rw [ha] at hn
        cases n
        · rw [hp]
          split_ifs
          · exact Or.inr rfl
          · exact Or.inl rfl
        · exact absurd rfl hn
      · cases n
        · show (m.failover now).status .primary = .down
          rw [hp, if_pos hd]
        · exact absurd hd hbackup
  | backup =>
    obtain ⟨ha, hp, hb⟩ := status_failback hactive now
    simp only [reduceCtorEq, if_false, Statuses.clock, forall_true_left]
    constructor
    · rintro ⟨-, hrev⟩
      refine ⟨fun hd => ?_, fun hd => ?_⟩
      · have hstay : (m.failback now).status .backup = .down := hrev .backup hd
        rw [hb] at hstay
        nomatch hstay
      · have hstay : (m.failback now).status .primary = .down := hrev .primary hd
        rw [hp] at hstay
        nomatch hstay
    · rintro ⟨hbackup, hprimary⟩
      refine ⟨⟨ha ▸ Or.inl hp, fun n hn => ?_⟩, fun n hd => ?_⟩
      · rw [ha] at hn
        cases n
        · exact absurd rfl hn
        · exact Or.inl hb
      · cases n
        · exact absurd hd hprimary
        · exact absurd hd hbackup

/-- The status a response to a heartbeat leaves. -/
theorem recordHeartbeatRtt_sound (h : m.Statuses) (name : LinkName) (seq : ℕ)
    (sendTime sentNow now : Time) :
    (m.setLink name ((m.link name).recordHeartbeatRtt fl seq (sentNow - sendTime) now
      (m.activeLink = name))).Statuses := by
  refine h.setLink ⟨fun hname => ?_, fun hname => ?_⟩
  · simp only [LinkState.recordHeartbeatRtt, hname, decide_true, if_true]
    split_ifs with hd
    · exact Or.inl rfl
    · exact h.1
  · have hne : (decide (m.activeLink = name)) = false := decide_eq_false fun heq => hname heq.symm
    simp only [LinkState.recordHeartbeatRtt, hne, Bool.false_eq_true, if_false]
    split_ifs with hd
    · exact Or.inl rfl
    · exact h.2 name hname

/-- An error marks the link as down. -/
theorem socketError_sound (h : m.Statuses) (name : LinkName) (binding : Bool) :
    (m.socketError name binding).Statuses ∧ ∀ n, StaysDown m (m.socketError name binding) n := by
  constructor
  · exact h.setLink ⟨fun _ => Or.inr rfl, fun _ => Or.inr rfl⟩
  · exact fun n => staysDown_setLink _ fun _ _ => rfl

/-- A recovery is sound exactly when it does not put the active link on standby. -/
theorem recoveryTimer_iff (h : m.Statuses) (name : LinkName) (created : Bool) :
    (m.step fl (.recoveryTimer name created)).Statuses ∧
        m.RevivedOnly fl (.recoveryTimer name created) ↔
      m.Careful fl (.recoveryTimer name created) := by
  simp only [RevivedOnly, Careful, step]
  have hkeep : ∀ link : LinkState, link.health.status = m.status name →
      (m.setLink name link).Statuses ∧ ∀ n, StaysDown m (m.setLink name link) n := by
    intro link hlink
    refine ⟨h.setLink ⟨fun hname => ?_, fun hname => ?_⟩, fun n => staysDown_setLink _ ?_⟩
    · rw [hlink, hname]
      exact h.1
    · rw [hlink]
      exact h.2 name hname
    · exact fun _ hd => hlink.trans hd
  split_ifs with htimer hstopped
  · obtain ⟨hs, hd⟩ := hkeep { m.link name with recoveryTimer := false } rfl
    exact iff_of_true ⟨hs, fun n _ => hd n⟩ fun _ hno => absurd (hstopped.symm.trans hno) nofun
  · rw [Bool.not_eq_true] at hstopped
    cases created with
    | false =>
      refine iff_of_true ⟨h.setLink ⟨fun _ => Or.inr rfl, fun _ => Or.inr rfl⟩, fun n _ => ?_⟩ nofun
      exact staysDown_setLink _ fun _ _ => rfl
    | true =>
      by_cases hinterface : (m.link name).interface = true
      · have hlink : LinkState.recreateLinkSocket { m.link name with recoveryTimer := false } true =
            { m.link name with recoveryTimer := false, socket := true, binding := true } := by
          simp only [LinkState.recreateLinkSocket, hinterface, if_true]
        rw [hlink]
        obtain ⟨hs, hd⟩ := hkeep { m.link name with
          recoveryTimer := false, socket := true, binding := true } rfl
        exact iff_of_true ⟨hs, fun n _ => hd n⟩ fun _ _ _ hno =>
          absurd (hinterface.symm.trans hno) nofun
      · rw [Bool.not_eq_true] at hinterface
        have hlink : (LinkState.recreateLinkSocket
            { m.link name with recoveryTimer := false } true).health.status = .standby := by
          simp only [LinkState.recreateLinkSocket, hinterface, Bool.false_eq_true, if_false, if_true,
            LinkState.status_withStatus]
        rw [statuses_standby_iff h _ hlink]
        constructor
        · exact fun hs _ _ _ _ => hs.1
        · refine fun hcare => ⟨hcare htimer hstopped rfl hinterface, fun n hn =>
            staysDown_setLink _ ?_⟩
          exact fun hname => absurd hname (hn.resolve_right (by simp [hinterface]))
  · exact iff_of_true ⟨h, fun n _ hd => hd⟩ fun ht => absurd ht htimer

theorem bound_iff (h : m.Statuses) (name : LinkName) :
    (m.step fl (.bound name)).Statuses ∧ m.RevivedOnly fl (.bound name) ↔
      m.Careful fl (.bound name) := by
  simp only [RevivedOnly, Careful, step]
  split_ifs with hbinding
  · rw [statuses_standby_iff h _ rfl]
    constructor
    · exact fun hs _ => hs.1
    · exact fun hcare => ⟨hcare hbinding, fun n hn => staysDown_setLink _ fun hname =>
        absurd hname hn⟩
  · exact iff_of_true ⟨h, fun n _ hd => hd⟩ fun hb => absurd hb hbinding

/-- **A step is sound exactly when it is careful.** -/
theorem step_iff (h : m.Statuses) (ev : BondingEvent) :
    (m.step fl ev).Statuses ∧ m.RevivedOnly fl ev ↔ m.Careful fl ev := by
  cases ev with
  | checkHealth r =>
    by_cases htimer : m.healthCheckTimer = true
    · exact checkHealth_iff h r htimer
    · refine iff_of_true ⟨?_, fun ht => absurd ht htimer⟩ fun ht => absurd ht htimer
      simp only [step, htimer, Bool.false_eq_true, if_false]
      exact h
  | heartbeatResponse name seq sentNow now =>
    simp only [RevivedOnly, Careful, step]
    refine iff_of_true ?_ trivial
    split
    · exact ⟨h, fun n _ hd => hd⟩
    · refine ⟨(Statuses.clock _ now).2 (recordHeartbeatRtt_sound h name seq _ sentNow now),
        fun n hn => ?_⟩
      exact staysDown_setLink (m := m) _ fun hname => absurd hname hn
  | socketError name => exact iff_of_true (socketError_sound h name _) trivial
  | bindFailed name =>
    simp only [RevivedOnly, Careful, step]
    refine iff_of_true ?_ trivial
    split_ifs
    · exact socketError_sound h name false
    · exact ⟨h, fun n hd => hd⟩
  | recoveryTimer name created => exact recoveryTimer_iff h name created
  | bound name => exact bound_iff h name
  | forceFailover now => exact forceFailover_iff m now
  | setThresholds thresholds => exact iff_of_true ⟨⟨h.1, h.2⟩, fun n hd => hd⟩ trivial
  | stop =>
    have hstatus : ∀ n, (m.step fl .stop).status n = m.status n := by
      intro n
      cases n <;> rfl
    exact iff_of_true ⟨h.of_eq rfl fun n => Or.inl (hstatus n), fun n hd => (hstatus n).trans hd⟩
      trivial

end Events

/-- **The bonding statuses.** Along every run after `initialize` the active link is active or down,
the other one is on standby or down, and a link comes back only by a response to its heartbeat or
by a recovery that succeeds, exactly when every step is careful. -/
theorem bonding_statuses (fl : Rounding) (primaryInterface backupInterface : Bool)
    (thresholds : FailoverThresholds) (now : Time) (es : List BondingEvent) :
    Along (step fl) (fun m ev => (m.step fl ev).Statuses ∧ m.RevivedOnly fl ev)
        (initialized primaryInterface backupInterface thresholds now) es ↔
      Along (step fl) (Careful fl)
        (initialized primaryInterface backupInterface thresholds now) es := by
  refine Along.congr_of_invariant (I := Statuses) (C := fun _ _ => True)
    (fun m ev h _ => ⟨step_iff h ev, And.left⟩) ?_ (Along.of_forall (fun _ _ => trivial) _ es)
  refine ⟨Or.inl rfl, fun n hn => ?_⟩
  cases n
  · exact absurd rfl hn
  · exact Or.inl rfl

/-- Both sockets fail, and the one of the active link comes back first. -/
def bothFail : List BondingEvent :=
  [.socketError .primary, .socketError .backup, .recoveryTimer .primary true]

/-- The recovery leaves the active link on standby. -/
theorem recovered_on_standby :
    (run (step id) (initialized false false {} 0) bothFail).activeLink = .primary ∧
      (run (step id) (initialized false false {} 0) bothFail).status .primary = .standby ∧
      ¬ (run (step id) (initialized false false {} 0) bothFail).Statuses := by
  refine ⟨rfl, rfl, fun h => ?_⟩
  rcases h.1 with h | h <;> nomatch h

end BondingManager

end EdgeLink
