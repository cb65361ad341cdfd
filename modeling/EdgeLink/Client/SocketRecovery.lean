import EdgeLink.Client.Bonding

/-!
# The recovery of failed sockets

The sockets behind the two bonded links, next to the manager that recovers them: an error on a
socket marks its link as down and arms the recovery timer, unless it is armed, and when the timer
fires `recreateLinkSocket` of `transport/bonding-health.ts` creates a new socket, attaches the
handlers and binds it. What a recovery attempt comes to is an event's own: the socket cannot be
created, it can be and the call to bind it fails at once, or neither.

* `manager_frame`: nothing but an error and a recovery attempt touches a recovery timer.
* `sockets_watched_iff`: a link without a usable socket has its recovery timer armed in every state
  of exactly the runs in which no recovery attempt fails at once.
* `abandoned_of_quiet`: after such an attempt only another error event brings the link back.
-/

namespace EdgeLink

/-- The socket a link holds. -/
structure LinkSocket where
  isOpen : Bool := true
  /-- the message handler and the error handler are attached -/
  handlers : Bool := true
  /-- an error event has been reported on it -/
  errorReported : Bool := false
  /-- the call to bind it has thrown -/
  bindThrown : Bool := false
  deriving DecidableEq

/-- It is open, has its handlers, and no error has been reported on it. -/
def LinkSocket.Usable (socket : LinkSocket) : Prop :=
  socket.isOpen = true ∧ socket.handlers = true ∧ socket.errorReported = false

/-- It is usable, and bound if it has to be. -/
def LinkSocket.UsableBound (socket : LinkSocket) : Prop :=
  socket.Usable ∧ socket.bindThrown = false

/-- What a recovery attempt comes to. -/
inductive RecoveryOutcome
  /-- nothing throws; the socket may still fail to be bound later -/
  | created
  | creationThrows
  | bindThrows
  deriving DecidableEq

namespace RecoveryOutcome

/-- The attempt creates a socket. -/
def creates : RecoveryOutcome → Bool
  | creationThrows => false
  | _ => true

/-- The attempt runs through; a socket without an interface is not bound. -/
def succeeds (outcome : RecoveryOutcome) (interface : Bool) : Bool :=
  match outcome with
  | created => true
  | creationThrows => false
  | bindThrows => !interface

/-- The socket the link holds after the attempt, which closes the one it had first. -/
def socket (outcome : RecoveryOutcome) (interface : Bool) (old : LinkSocket) : LinkSocket :=
  match outcome with
  | created => {}
  | creationThrows => { old with isOpen := false }
  | bindThrows => { bindThrown := interface }

end RecoveryOutcome

/-- The manager and the sockets of its links. -/
structure BondedSockets where
  manager : BondingManager
  socket : LinkName → LinkSocket

/-- The events between `initialize` and `stop`. -/
inductive SocketEvent
  | checkHealth (readings : Readings)
  | heartbeatResponse (link : LinkName) (seq : ℕ) (sentNow now : Time)
  /-- an error event of the socket the link holds, or of one that it held before -/
  | socketError (link : LinkName) (older : Bool)
  /-- the socket of a link cannot be bound to the interface, which comes as an error event -/
  | bindFailed (link : LinkName)
  | recoveryTimer (link : LinkName) (outcome : RecoveryOutcome)
  | bound (link : LinkName)
  | forceFailover (now : Time)
  | setThresholds (thresholds : FailoverThresholds)

/-- The event reports an error to a link. -/
def SocketEvent.Reports (name : LinkName) : SocketEvent → Prop
  | .socketError n _ => n = name
  | .bindFailed n => n = name
  | _ => False

namespace BondedSockets

/-- After `initialize` each link has a socket with its handlers. -/
def initialized (primaryInterface backupInterface : Bool) (thresholds : FailoverThresholds)
    (now : Time) : BondedSockets where
  manager := BondingManager.initialized primaryInterface backupInterface thresholds now
  socket := fun _ => {}

/-- An error event has been reported on the socket of a link. -/
def reported (w : BondedSockets) (name : LinkName) : LinkName → LinkSocket :=
  Function.update w.socket name { w.socket name with errorReported := true }

/-- A recovery attempt is made for a link when its timer fires. -/
def attempts (w : BondedSockets) (name : LinkName) : Bool :=
  (w.manager.link name).recoveryTimer && !w.manager.stopped

def step (fl : Rounding) (w : BondedSockets) : SocketEvent → BondedSockets
  | .checkHealth r => { w with manager := w.manager.step fl (.checkHealth r) }
  | .heartbeatResponse name seq sentNow now =>
    { w with manager := w.manager.step fl (.heartbeatResponse name seq sentNow now) }
  | .socketError name older =>
    { manager := w.manager.step fl (.socketError name)
      socket := if older then w.socket else w.reported name }
  | .bindFailed name =>
    { manager := w.manager.step fl (.bindFailed name)
      socket := if (w.manager.link name).binding then w.reported name else w.socket }
  | .recoveryTimer name outcome =>
    let interface := (w.manager.link name).interface
    { manager := w.manager.step fl (.recoveryTimer name (outcome.succeeds interface))
      socket := if w.attempts name then
          Function.update w.socket name (outcome.socket interface (w.socket name))
        else w.socket }
  | .bound name => { w with manager := w.manager.step fl (.bound name) }
  | .forceFailover now => { w with manager := w.manager.step fl (.forceFailover now) }
  | .setThresholds thresholds =>
    { w with manager := w.manager.step fl (.setThresholds thresholds) }

/-- A link whose socket is not usable has its recovery timer armed. -/
def Watched (usable : LinkSocket → Prop) (w : BondedSockets) : Prop :=
  ∀ name, usable (w.socket name) ∨ (w.manager.link name).recoveryTimer = true

/-- The recovery attempts that are made come to what `ok` allows, with an interface or without. -/
def Attempts (ok : RecoveryOutcome → Bool → Bool) (w : BondedSockets) : SocketEvent → Prop
  | .recoveryTimer name outcome => (w.manager.link name).recoveryTimer = true →
      ok outcome (w.manager.link name).interface = true
  | _ => True

/-! ## What touches a recovery timer -/

section Frame

variable {fl : Rounding} {m m' : BondingManager}

/-- The recovery timers and the flag of `stop` are as they were. -/
def SameTimers (m m' : BondingManager) : Prop :=
  m'.stopped = m.stopped ∧ ∀ n, (m'.link n).recoveryTimer = (m.link n).recoveryTimer

theorem recoveryTimer_measureLinkHealth (fl : Rounding) (link : LinkState)
    (timestamp timeout : Time) :
    (link.measureLinkHealth fl timestamp timeout).recoveryTimer = link.recoveryTimer := by
  have hmark : ∀ l : LinkState,
      (l.maybeMarkLinkDown timestamp timeout).recoveryTimer = l.recoveryTimer := by
    intro l
    unfold LinkState.maybeMarkLinkDown
    split_ifs <;> rfl
  have hmetrics : ∀ l : LinkState, (l.updateLinkMetrics fl).recoveryTimer = l.recoveryTimer := by
    intro l
    unfold LinkState.updateLinkMetrics
    split <;> rfl
  unfold LinkState.measureLinkHealth
  split_ifs
  · rw [hmark, hmetrics]
    rfl
  · rfl

theorem SameTimers.trans {m'' : BondingManager} (h : SameTimers m m') (h' : SameTimers m' m'') :
    SameTimers m m'' :=
  ⟨h'.1.trans h.1, fun n => (h'.2 n).trans (h.2 n)⟩

theorem SameTimers.refl (m : BondingManager) : SameTimers m m := ⟨rfl, fun _ => rfl⟩

theorem SameTimers.clock (h : SameTimers m m') (now : Time) :
    SameTimers m { m' with clock := now } :=
  ⟨h.1, fun n => by cases n; exacts [h.2 .primary, h.2 .backup]⟩

theorem sameTimers_failover (m : BondingManager) (now : Time) : SameTimers m (m.failover now) := by
  unfold BondingManager.failover
  by_cases hactive : m.activeLink = .backup
  · rw [if_pos hactive]
    exact SameTimers.refl m
  · rw [if_neg hactive]
    exact ⟨rfl, fun n => by cases n <;> rfl⟩

theorem sameTimers_failback (m : BondingManager) (now : Time) : SameTimers m (m.failback now) := by
  unfold BondingManager.failback
  split_ifs
  · exact SameTimers.refl m
  · exact ⟨rfl, fun n => by cases n <;> rfl⟩

theorem sameTimers_checkHealth (m : BondingManager) (r : Readings) :
    SameTimers m (m.checkHealth fl r) := by
  have hmeasured : SameTimers m (m.measured fl r) :=
    ⟨rfl, fun n => by cases n <;> exact recoveryTimer_measureLinkHealth ..⟩
  unfold BondingManager.checkHealth
  dsimp only
  split_ifs
  · exact hmeasured.trans (sameTimers_failover _ _)
  · exact hmeasured.trans (sameTimers_failback _ _)
  · exact hmeasured

theorem sameTimers_setLink {name : LinkName} {link : LinkState}
    (h : link.recoveryTimer = (m.link name).recoveryTimer) : SameTimers m (m.setLink name link) := by
  cases name <;> exact ⟨rfl, fun n => by cases n <;> first | exact h | rfl⟩

/-- Nothing but an error, a recovery attempt and `stop` touches a recovery timer. -/
theorem manager_frame (m : BondingManager) (e : BondingEvent)
    (hevent : match e with
      | .socketError _ | .bindFailed _ | .recoveryTimer _ _ | .stop => False
      | _ => True) : SameTimers m (m.step fl e) := by
  cases e with
  | checkHealth r =>
    by_cases htimer : m.healthCheckTimer = true
    · simp only [BondingManager.step, htimer, if_true]
      exact (sameTimers_checkHealth m r).clock r.switch
    · simp only [BondingManager.step, htimer]
      exact SameTimers.refl m
  | heartbeatResponse name seq sentNow now =>
    simp only [BondingManager.step]
    split
    · exact SameTimers.refl m
    · refine SameTimers.clock ?_ now
      exact sameTimers_setLink rfl
  | bound name =>
    by_cases hbinding : (m.link name).binding = true
    · simp only [BondingManager.step, hbinding, if_true]
      exact sameTimers_setLink rfl
    · simp only [BondingManager.step, hbinding]
      exact SameTimers.refl m
  | forceFailover now =>
    by_cases hactive : m.activeLink = .primary
    · simp only [BondingManager.step, hactive, if_true]
      exact (sameTimers_failover m now).clock now
    · simp only [BondingManager.step, hactive, if_false]
      exact (sameTimers_failback m now).clock now
  | setThresholds thresholds => exact ⟨rfl, fun n => by cases n <;> rfl⟩
  | socketError name => exact hevent.elim
  | bindFailed name => exact hevent.elim
  | recoveryTimer name created => exact hevent.elim
  | stop => exact hevent.elim

end Frame

/-! ## What a step does to a link -/

section Step

variable {fl : Rounding} {w : BondedSockets} {name n : LinkName}

theorem recoveryTimer_setLink (m : BondingManager) (link : LinkState) :
    ((m.setLink name link).link n).recoveryTimer =
      if n = name then link.recoveryTimer else (m.link n).recoveryTimer := by
  split_ifs with h
  · rw [h, BondingManager.link_setLink_self]
  · rw [BondingManager.link_setLink_of_ne m h]

@[simp] theorem stopped_setLink (m : BondingManager) (link : LinkState) :
    (m.setLink name link).stopped = m.stopped := by
  cases name <;> rfl

/-- The error handler arms the timer of the link, and leaves the other one alone. -/
theorem recoveryTimer_socketError (m : BondingManager) (binding : Bool) (h : m.stopped = false) :
    ((m.socketError name binding).link n).recoveryTimer =
      if n = name then true else (m.link n).recoveryTimer := by
  rw [BondingManager.socketError, recoveryTimer_setLink, h]
  rfl

theorem recoveryTimer_recreateLinkSocket (link : LinkState) (created : Bool) :
    (link.recreateLinkSocket created).recoveryTimer = link.recoveryTimer := by
  unfold LinkState.recreateLinkSocket
  split_ifs <;> rfl

/-- A recovery timer that fires is no longer armed. -/
theorem recoveryTimer_recovered (fl : Rounding) (m : BondingManager) (created : Bool) :
    ((m.step fl (.recoveryTimer name created)).link n).recoveryTimer =
      if n = name then false else (m.link n).recoveryTimer := by
  by_cases htimer : (m.link name).recoveryTimer = true
  · rcases hstopped : m.stopped with _ | _
    · simp only [BondingManager.step, htimer, hstopped, if_true, Bool.false_eq_true, if_false,
        recoveryTimer_setLink, recoveryTimer_recreateLinkSocket]
    · simp only [BondingManager.step, htimer, hstopped, if_true, recoveryTimer_setLink]
  · simp only [BondingManager.step, htimer, Bool.false_eq_true, if_false]
    split_ifs with hn
    · rw [hn]
      simpa using htimer
    · rfl

/-- The event makes no recovery attempt. -/
def NoAttempt (w : BondedSockets) (e : SocketEvent) : Prop :=
  ∀ name outcome, e = .recoveryTimer name outcome → (w.manager.link name).recoveryTimer = false

/-- Sockets and timers are as they were. -/
def Quiet (w w' : BondedSockets) : Prop :=
  w'.socket = w.socket ∧ ∀ n, (w'.manager.link n).recoveryTimer = (w.manager.link n).recoveryTimer

/-- The timer of a link is armed, and its socket has an error reported or is left as it was. -/
def Armed (w w' : BondedSockets) (name : LinkName) : Prop :=
  (∀ n ≠ name, w'.socket n = w.socket n) ∧
    ∀ n, (w'.manager.link n).recoveryTimer =
      if n = name then true else (w.manager.link n).recoveryTimer

/-- The armed timer of a link has fired, and its socket is what the recovery attempt left. -/
def Attempted (w w' : BondedSockets) (name : LinkName) (outcome : RecoveryOutcome) : Prop :=
  w'.socket = Function.update w.socket name
      (outcome.socket (w.manager.link name).interface (w.socket name)) ∧
    ∀ n, (w'.manager.link n).recoveryTimer =
      if n = name then false else (w.manager.link n).recoveryTimer

theorem armed_reported {w' : BondedSockets} {binding : Bool} (h : w.manager.stopped = false)
    (hmanager : w'.manager = w.manager.socketError name binding)
    (hsocket : w'.socket = w.socket ∨ w'.socket = w.reported name) : Armed w w' name := by
  refine ⟨fun n hn => ?_, fun n => ?_⟩
  · rcases hsocket with hsocket | hsocket
    · rw [hsocket]
    · rw [hsocket, reported, Function.update_of_ne hn]
  · rw [hmanager, recoveryTimer_socketError w.manager binding h]

/-- What a step does: an error arms a timer, a timer that fires makes a recovery attempt, and
nothing else touches sockets and timers. -/
theorem step_cases (w : BondedSockets) (e : SocketEvent) (h : w.manager.stopped = false) :
    (w.step fl e).manager.stopped = false ∧
      ((NoAttempt w e ∧ (Quiet w (w.step fl e) ∨ ∃ name, e.Reports name ∧ Armed w (w.step fl e) name)) ∨
        ∃ name outcome, e = .recoveryTimer name outcome ∧
          (w.manager.link name).recoveryTimer = true ∧ Attempted w (w.step fl e) name outcome) := by
  have quiet : ∀ e' : BondingEvent, SameTimers w.manager (w.manager.step fl e') →
      w.step fl e = { w with manager := w.manager.step fl e' } → NoAttempt w e →
        (w.step fl e).manager.stopped = false ∧
          ((NoAttempt w e ∧ (Quiet w (w.step fl e) ∨ ∃ name, e.Reports name ∧ Armed w (w.step fl e) name)) ∨
            ∃ name outcome, e = .recoveryTimer name outcome ∧
              (w.manager.link name).recoveryTimer = true ∧
              Attempted w (w.step fl e) name outcome) := by
    intro e' hsame heq hno
    rw [heq]
    exact ⟨hsame.1.trans h, Or.inl ⟨hno, Or.inl ⟨rfl, hsame.2⟩⟩⟩
  cases e with
  | checkHealth r => exact quiet (.checkHealth r) (manager_frame _ _ trivial) rfl (by rintro _ _ ⟨⟩)
  | heartbeatResponse name seq sentNow now =>
    exact quiet (.heartbeatResponse name seq sentNow now) (manager_frame _ _ trivial) rfl (by rintro _ _ ⟨⟩)
  | bound name => exact quiet (.bound name) (manager_frame _ _ trivial) rfl (by rintro _ _ ⟨⟩)
  | forceFailover now => exact quiet (.forceFailover now) (manager_frame _ _ trivial) rfl (by rintro _ _ ⟨⟩)
  | setThresholds thresholds =>
    exact quiet (.setThresholds thresholds) (manager_frame _ _ trivial) rfl (by rintro _ _ ⟨⟩)
  | socketError name older =>
    refine ⟨(stopped_setLink _ _).trans h, Or.inl ⟨(by rintro _ _ ⟨⟩), Or.inr ⟨name, rfl, ?_⟩⟩⟩
    refine armed_reported h rfl ?_
    cases older
    · exact Or.inr rfl
    · exact Or.inl rfl
  | bindFailed name =>
    by_cases hbinding : (w.manager.link name).binding = true
    · have hstep : w.manager.step fl (.bindFailed name) = w.manager.socketError name false := by
        simp only [BondingManager.step, hbinding, if_true]
      refine ⟨?_, Or.inl ⟨(by rintro _ _ ⟨⟩), Or.inr ⟨name, rfl, armed_reported h hstep (Or.inr ?_)⟩⟩⟩
      · exact (congrArg BondingManager.stopped hstep).trans ((stopped_setLink _ _).trans h)
      · simp only [step, hbinding, if_true]
    · have hstep : w.manager.step fl (.bindFailed name) = w.manager := by
        simp only [BondingManager.step, hbinding, Bool.false_eq_true, if_false]
      refine quiet (.bindFailed name) ?_ ?_ (by rintro _ _ ⟨⟩)
      · rw [hstep]
        exact SameTimers.refl _
      · simp only [step, hbinding, Bool.false_eq_true, if_false]
  | recoveryTimer name outcome =>
    by_cases htimer : (w.manager.link name).recoveryTimer = true
    · have hattempts : w.attempts name = true := by simp [attempts, htimer, h]
      refine ⟨?_, Or.inr ⟨name, outcome, rfl, htimer, ?_, fun n => recoveryTimer_recovered fl _ _⟩⟩
      · simp only [step, BondingManager.step, htimer, h, if_true, Bool.false_eq_true, if_false,
          stopped_setLink]
      · simp only [step, hattempts, if_true]
    · have hattempts : w.attempts name = false := by simp [attempts, htimer]
      refine quiet (.recoveryTimer name
        (outcome.succeeds (w.manager.link name).interface)) ?_ ?_ ?_
      · simp only [BondingManager.step, htimer, Bool.false_eq_true, if_false]
        exact SameTimers.refl _
      · simp only [step, hattempts, Bool.false_eq_true, if_false]
      · rintro _ _ ⟨⟩
        simpa using htimer

/-- A step keeps the links watched exactly when the recovery attempt it makes, if it makes one,
leaves a usable socket. -/
theorem watched_step_iff {usable : LinkSocket → Prop} {ok : RecoveryOutcome → Bool → Bool}
    (hok : ∀ outcome interface old,
      usable (RecoveryOutcome.socket outcome interface old) ↔ ok outcome interface = true)
    (h : w.manager.stopped = false) (hw : Watched usable w) (e : SocketEvent) :
    Watched usable (w.step fl e) ↔ Attempts ok w e := by
  obtain ⟨-, ⟨hno, hquiet | ⟨name, -, hsocket, htimer⟩⟩ | ⟨name, outcome, rfl, harmed, hsocket, htimer⟩⟩ :=
    step_cases w e h
  · refine iff_of_true (fun n => ?_) ?_
    · rw [hquiet.1, hquiet.2]
      exact hw n
    · cases e with
      | recoveryTimer name outcome => exact fun ht => absurd ht (by simp [hno name outcome rfl])
      | _ => trivial
  · refine iff_of_true (fun n => ?_) ?_
    · rw [htimer]
      split_ifs with hn
      · exact Or.inr rfl
      · rw [hsocket n hn]
        exact hw n
    · cases e with
      | recoveryTimer name outcome => exact fun ht => absurd ht (by simp [hno name outcome rfl])
      | _ => trivial
  · have hattempt : Attempts ok w (.recoveryTimer name outcome) ↔
        usable (outcome.socket (w.manager.link name).interface (w.socket name)) := by
      rw [hok, Attempts]
      exact ⟨fun ho => ho harmed, fun ho _ => ho⟩
    rw [hattempt]
    constructor
    · intro hwatched
      have hname := hwatched name
      rw [hsocket, htimer, if_pos rfl, Function.update_self] at hname
      exact hname.resolve_right Bool.false_ne_true
    · intro husable n
      rw [hsocket, htimer]
      split_ifs with hn
      · rw [hn, Function.update_self]
        exact Or.inl husable
      · rw [Function.update_of_ne hn]
        exact hw n

end Step

/-- In every state of a run the links are watched, exactly when no recovery attempt of the run
leaves a socket that is not usable. -/
theorem run_watched_iff {usable : LinkSocket → Prop} {ok : RecoveryOutcome → Bool → Bool}
    (hok : ∀ outcome interface old,
      usable (RecoveryOutcome.socket outcome interface old) ↔ ok outcome interface = true)
    (hnew : usable {}) (fl : Rounding) (primaryInterface backupInterface : Bool)
    (thresholds : FailoverThresholds) (now : Time) (es : List SocketEvent) :
    (∀ before after, es = before ++ after → Watched usable
        (run (step fl) (initialized primaryInterface backupInterface thresholds now) before)) ↔
      Along (step fl) (Attempts ok)
        (initialized primaryInterface backupInterface thresholds now) es := by
  set w := initialized primaryInterface backupInterface thresholds now
  have hstopped : ∀ before, (run (step fl) w before).manager.stopped = false := fun before =>
    run_invariant (I := fun w => w.manager.stopped = false)
      (fun w e hs => (step_cases w e hs).1) rfl before
  rw [← forall_prefix_iff_along
    (I := fun w => w.manager.stopped = false ∧ Watched usable w)
    (fun w e hI => ?_) ⟨rfl, fun _ => Or.inl hnew⟩]
  · simp only [hstopped, true_and]
  · rw [watched_step_iff hok hI.1 hI.2 e]
    exact ⟨fun h => h.2, fun h => ⟨(step_cases w e hI.1).1, h⟩⟩

theorem usable_socket_iff (outcome : RecoveryOutcome) (interface : Bool) (old : LinkSocket) :
    (outcome.socket interface old).Usable ↔ outcome.creates = true := by
  cases outcome <;> simp [RecoveryOutcome.socket, RecoveryOutcome.creates, LinkSocket.Usable]

theorem usableBound_socket_iff (outcome : RecoveryOutcome) (interface : Bool) (old : LinkSocket) :
    (outcome.socket interface old).UsableBound ↔ outcome.succeeds interface = true := by
  cases outcome <;> cases interface <;>
    simp [RecoveryOutcome.socket, RecoveryOutcome.succeeds, LinkSocket.Usable,
      LinkSocket.UsableBound]

/-- **When no failed socket is abandoned.** Each link has a usable socket or its recovery timer
armed in every state of exactly the runs in which every recovery attempt creates a socket; and,
where a socket that the attempt could not bind counts as failed, of exactly the runs in which no
recovery attempt throws. -/
theorem sockets_watched_iff (fl : Rounding) (primaryInterface backupInterface : Bool)
    (thresholds : FailoverThresholds) (now : Time) (es : List SocketEvent) :
    ((∀ before after, es = before ++ after → Watched LinkSocket.Usable
        (run (step fl) (initialized primaryInterface backupInterface thresholds now) before)) ↔
      Along (step fl) (Attempts fun outcome _ => outcome.creates)
        (initialized primaryInterface backupInterface thresholds now) es) ∧
    ((∀ before after, es = before ++ after → Watched LinkSocket.UsableBound
        (run (step fl) (initialized primaryInterface backupInterface thresholds now) before)) ↔
      Along (step fl) (Attempts RecoveryOutcome.succeeds)
        (initialized primaryInterface backupInterface thresholds now) es) :=
  ⟨run_watched_iff usable_socket_iff ⟨rfl, rfl, rfl⟩ fl primaryInterface backupInterface
      thresholds now es,
    run_watched_iff usableBound_socket_iff ⟨⟨rfl, rfl, rfl⟩, rfl⟩ fl primaryInterface
      backupInterface thresholds now es⟩

/-! ## Abandoned links -/

/-- The socket of a link is not usable, and no recovery is due. -/
def Abandoned (w : BondedSockets) (name : LinkName) : Prop :=
  ¬ (w.socket name).Usable ∧ (w.manager.link name).recoveryTimer = false

theorem abandoned_step {fl : Rounding} {w : BondedSockets} {name : LinkName} {e : SocketEvent}
    (h : w.manager.stopped = false) (hw : w.Abandoned name) (he : ¬ e.Reports name) :
    (w.step fl e).Abandoned name := by
  obtain ⟨-, ⟨-, hquiet | ⟨n, hn, hsocket, htimer⟩⟩ | ⟨n, outcome, rfl, harmed, hsocket, htimer⟩⟩ :=
    step_cases w e h
  · rw [Abandoned, hquiet.1, hquiet.2]
    exact hw
  · have hne : name ≠ n := fun heq => he (heq ▸ hn)
    rw [Abandoned, hsocket name hne, htimer, if_neg hne]
    exact hw
  · have hne : name ≠ n := by
      rintro rfl
      rw [hw.2] at harmed
      nomatch harmed
    rw [Abandoned, hsocket, Function.update_of_ne hne, htimer, if_neg hne]
    exact hw

/-- **Abandoned for good.** Until another error is reported to it, an abandoned link stays
abandoned, whatever happens. -/
theorem abandoned_of_quiet {fl : Rounding} {w : BondedSockets} {name : LinkName}
    {es : List SocketEvent} (h : w.manager.stopped = false) (hw : w.Abandoned name)
    (hquiet : ∀ e ∈ es, ¬ e.Reports name) : (run (step fl) w es).Abandoned name := by
  induction es generalizing w with
  | nil => exact hw
  | cons e es ih =>
    have he := hquiet e List.mem_cons_self
    exact ih (step_cases w e h).1 (abandoned_step h hw he)
      fun e' he' => hquiet e' (List.mem_cons_of_mem _ he')

/-- **The defect.** The socket of the primary link fails, and no new one can be created: the link
has a closed socket and no timer. -/
theorem abandoned_after_creation_throws :
    (run (step id) (initialized false false {} 0)
      [.socketError .primary false, .recoveryTimer .primary .creationThrows]).Abandoned .primary := by
  refine ⟨fun h => Bool.false_ne_true h.1, rfl⟩

end BondedSockets

end EdgeLink
