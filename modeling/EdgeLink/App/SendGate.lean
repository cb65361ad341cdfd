import EdgeLink.App.StartStop

/-!
# The send gate

`state.readyToSend` is set by the body of `start()`, by `start()` itself, by socket recovery and by
the subscription retry. Recovery and the retry know of each other; a body that comes out of an
await does not look whether a recovery has begun in the meantime.

* `Gate`: the part of the state that the flag has to agree with.
* `Gate.Down`, `Gate.Early`, `Gate.Up`: the connection is not up, has no socket yet, has had one.
* `Gated`: the invariant; `Gated.start`, `Gated.resume`, `Gated.socketError`,
  `Gated.recoveryTimer`, `Gated.subscriptionRetry` keep it.
* `send_gate`: what the flag means. `ready_during_recovery` is a body that sets it while the socket
  is being recovered.
-/

namespace EdgeLink

/-! ## The gate -/

/-- What the flag has to agree with. -/
structure Gate where
  lifecycle : LifecycleState
  stopped : Bool
  readyToSend : Bool
  socketRecoveryInProgress : Bool
  subscribed : Bool
  socketUdp : Handle
  subscriptionRetryTimer : Handle
  socketRecoveryTimer : Handle

namespace Gate

variable {g : Gate}

/-- There is at most one socket and one timer of each kind. -/
structure Single (g : Gate) : Prop where
  socket : g.socketUdp.Single
  retry : g.subscriptionRetryTimer.Single
  recovery : g.socketRecoveryTimer.Single

/-- The connection is not up. -/
structure Down (g : Gate) : Prop where
  lifecycle : g.lifecycle = .created ∨ g.lifecycle = .stopped ∧ g.stopped = true
  readyToSend : g.readyToSend = false
  recovering : g.socketRecoveryInProgress = false
  subscribed : g.subscribed = false
  socket : g.socketUdp.held = 0
  retry : g.subscriptionRetryTimer.held = 0
  recovery : g.socketRecoveryTimer.held = 0

/-- The connection is being started and has no socket yet. -/
structure Early (g : Gate) : Prop where
  lifecycle : g.lifecycle = .starting
  stopped : g.stopped = false
  readyToSend : g.readyToSend = false
  recovering : g.socketRecoveryInProgress = false
  subscribed : g.subscribed = false
  socket : g.socketUdp.held = 0
  retry : g.subscriptionRetryTimer.held = 0
  recovery : g.socketRecoveryTimer.held = 0

/-- The connection has a socket unless it is recovering it, and then it does not send. -/
structure Up (g : Gate) : Prop where
  lifecycle : g.lifecycle = .starting ∨ g.lifecycle = .ready ∨
    g.lifecycle = .recovering ∧ g.socketRecoveryInProgress = true
  stopped : g.stopped = false
  socket : g.socketUdp.held = if g.socketRecoveryInProgress then 0 else 1
  readyToSend : g.readyToSend = true → g.socketRecoveryInProgress = false
  recovery : g.socketRecoveryInProgress = false → g.socketRecoveryTimer.held = 0

theorem Early.not_up (hg : g.Early) : ¬ g.Up := by
  intro hup
  have := hup.socket
  rw [hg.socket, hg.recovering] at this
  nomatch this

/-- The flag says that packets can be sent. -/
theorem open_of_readyToSend (hg : g.Down ∨ g.Early ∨ g.Up) (hready : g.readyToSend = true) :
    (g.lifecycle = .starting ∨ g.lifecycle = .ready) ∧ g.socketUdp.held = 1 ∧
      g.socketRecoveryInProgress = false := by
  rcases hg with hdown | hearly | hup
  · exact absurd (hdown.readyToSend.symm.trans hready) (by decide)
  · exact absurd (hearly.readyToSend.symm.trans hready) (by decide)
  · have hrecovering := hup.readyToSend hready
    have hsocket := hup.socket
    rw [hrecovering] at hsocket
    refine ⟨?_, hsocket, hrecovering⟩
    rcases hup.lifecycle with h | h | ⟨-, h⟩
    · exact .inl h
    · exact .inr h
    · exact absurd (hrecovering.symm.trans h) (by decide)

end Gate

namespace Stage

/-- The body has not created the socket yet. -/
def early : Stage → Bool
  | storage | timerFile | epochFile => true
  | _ => false

/-- The body may still set the flag. -/
def armed : Stage → Bool
  | clientThrew | done => false
  | _ => true

end Stage

namespace Connection

variable {options : ConnectionOptions} {c c' : Connection}

def gate (c : Connection) : Gate where
  lifecycle := c.lifecycle
  stopped := c.stopped
  readyToSend := c.readyToSend
  socketRecoveryInProgress := c.socketRecoveryInProgress
  subscribed := c.subscribed
  socketUdp := c.socketUdp
  subscriptionRetryTimer := c.subscriptionRetryTimer
  socketRecoveryTimer := c.socketRecoveryTimer

/-! ## What leaves the gate alone -/

@[simp] theorem gate_restartMetadataTimer : c.restartMetadataTimer.gate = c.gate := by
  rw [restartMetadataTimer]
  split <;> rfl

@[simp] theorem gate_scheduleMetadataSnapshot : c.scheduleMetadataSnapshot.gate = c.gate := by
  rw [scheduleMetadataSnapshot]
  split <;> rfl

@[simp] theorem gate_setupReliableClient : (c.setupReliableClient options).1.gate = c.gate := by
  rw [setupReliableClient]
  split
  · rfl
  · cases options.bonding <;> rfl

theorem gate_stop : c.stop.gate = ⟨.stopped, true, false, false, false, c.socketUdp.release,
    c.subscriptionRetryTimer.release, c.socketRecoveryTimer.release⟩ := by
  simp only [stop, teardownMonitoringAndSocket, teardownPipelines, withPipeline]
  split <;> rfl

/-! ## Bodies -/

/-- A start goes through only when no body may still set the flag, and no body comes to set the
flag while the socket is being recovered. -/
def Uninterrupted (c : Connection) : Event → Prop
  | .start => (c.lifecycle.transition .starting).2 = true → ∀ s ∈ c.bodies, s.armed = false
  | .resume i _ => c.bodies[i]? = some .reliableClient ∨ c.bodies[i]? = some .clientStarted →
      c.isShuttingDown = true ∨ c.socketRecoveryInProgress = false
  | _ => True

instance : ∀ e, Decidable (c.Uninterrupted e)
  | .start => inferInstanceAs (Decidable (_ → _))
  | .resume _ _ => inferInstanceAs (Decidable (_ → _))
  | .stop | .socketError | .recoveryTimer _ | .helloSent _ _ | .helloRetry _ _ | .keepalive _
  | .subscriptionError | .subscriptionRetry _ => isTrue trivial

/-- Where the body is, the gate is. -/
def AtStage (c : Connection) (s : Stage) : Prop :=
  s.armed = true → if s.early then c.gate.Early else c.gate.Up

/-- **The invariant.** At most one body may still set the flag, and before its socket is there
nothing else does. -/
structure Gated (c : Connection) : Prop where
  single : c.gate.Single
  phase : c.gate.Down ∨ c.gate.Early ∨ c.gate.Up
  created : c.lifecycle = .created → c.bodies = []
  alone : c.lifecycle ≠ .stopped → ∀ (i j : ℕ) (s t : Stage), c.bodies[i]? = some s →
    c.bodies[j]? = some t → s.armed = true → t.armed = true → i = j
  stage : c.lifecycle ≠ .stopped → ∀ s ∈ c.bodies, c.AtStage s

/-- A step of a body that leaves the gate in order. -/
structure Lands (next : Connection × Stage) : Prop where
  single : next.1.gate.Single
  phase : next.1.gate.Down ∨ next.1.gate.Early ∨ next.1.gate.Up
  lifecycle : next.1.lifecycle ≠ .created
  stage : next.1.AtStage next.2

theorem gated_new : new.Gated where
  single := ⟨Handle.single_empty, Handle.single_empty, Handle.single_empty⟩
  phase := .inl ⟨.inl rfl, rfl, rfl, rfl, rfl, rfl, rfl⟩
  created _ := rfl
  alone _ _ _ _ _ hi := nomatch hi
  stage _ _ hs := nomatch hs

theorem down_stop (hc : c.gate.Single) : c.stop.gate.Single ∧ c.stop.gate.Down := by
  rw [gate_stop]
  exact ⟨⟨hc.socket.release, hc.retry.release, hc.recovery.release⟩,
    ⟨.inr ⟨rfl, rfl⟩, rfl, rfl, rfl, rfl, rfl, rfl⟩⟩

theorem gated_of_down (hc : c.gate.Single) (hdown : c.gate.Down)
    (hlifecycle : c.lifecycle = .stopped) : c.Gated where
  single := hc
  phase := .inl hdown
  created h := nomatch hlifecycle.symm.trans h
  alone h := absurd hlifecycle h
  stage h := absurd hlifecycle h

theorem Gated.stop (hc : c.Gated) : c.stop.Gated :=
  gated_of_down (down_stop hc.single).1 (down_stop hc.single).2 lifecycle_stop

/-- An event that does not touch the bodies. -/
theorem Gated.congr (hc : c.Gated) (hbodies : c'.bodies = c.bodies)
    (hcreated : c'.lifecycle = .created → c.lifecycle = .created) (hsingle : c'.gate.Single)
    (hup : c.gate.Up) (hup' : c'.gate.Up) : c'.Gated where
  single := hsingle
  phase := .inr (.inr hup')
  created h := hbodies ▸ hc.created (hcreated h)
  alone _ i j s t hi hj := by
    have hne : c.lifecycle ≠ .stopped := by
      rcases hup.lifecycle with h | h | ⟨h, -⟩ <;> exact fun h' => nomatch h.symm.trans h'
    rw [hbodies] at hi hj
    exact hc.alone hne i j s t hi hj
  stage _ s hs harmed := by
    have hne : c.lifecycle ≠ .stopped := by
      rcases hup.lifecycle with h | h | ⟨h, -⟩ <;> exact fun h' => nomatch h.symm.trans h'
    have hstage := hc.stage hne s (hbodies ▸ hs) harmed
    split
    · next hearly =>
      rw [if_pos hearly] at hstage
      exact absurd hup hstage.not_up
    · exact hup'

theorem Gated.start (hc : c.Gated) (hfree : c.Uninterrupted .start) :
    (c.start options).Gated := by
  cases haccepted : (c.lifecycle.transition .starting).2 with
  | false =>
    rw [start_refused haccepted]
    exact hc
  | true =>
    have hfree := hfree haccepted
    have hdown : c.gate.Down := by
      rcases hc.phase with hdown | hearly | hup
      · exact hdown
      · rw [show c.lifecycle = .starting from hearly.lifecycle] at haccepted
        nomatch haccepted
      · rcases hup.lifecycle with h | h | ⟨h, -⟩ <;>
          (rw [show c.lifecycle = _ from h] at haccepted; nomatch haccepted)
    rw [start_accepted haccepted]
    split
    · have hearly : (⟨.starting, false, c.readyToSend, c.socketRecoveryInProgress, c.subscribed,
          c.socketUdp, c.subscriptionRetryTimer, c.socketRecoveryTimer⟩ : Gate).Early :=
        ⟨rfl, rfl, hdown.readyToSend, hdown.recovering, hdown.subscribed, hdown.socket,
          hdown.retry, hdown.recovery⟩
      have hnone : ∀ s ∈ c.bodies, ¬ s.armed = true := fun s hs => by simp [hfree s hs]
      refine ⟨⟨hc.single.socket, hc.single.retry, hc.single.recovery⟩, .inr (.inl hearly), nofun,
        fun _ i j s t hi hj hs ht => ?_, fun _ s hs => ?_⟩
      · rw [eq_length_of_append_singleton hnone hi hs, eq_length_of_append_singleton hnone hj ht]
      intro harmed
      rcases List.mem_append.1 hs with hs | hs
      · exact absurd (hfree s hs) (by rw [harmed]; decide)
      · rw [List.mem_singleton.1 hs]
        exact hearly
    · exact ⟨⟨hc.single.socket, hc.single.retry, hc.single.recovery⟩,
        .inl ⟨.inr ⟨rfl, rfl⟩, hdown.readyToSend, hdown.recovering, hdown.subscribed, hdown.socket,
          hdown.retry, hdown.recovery⟩, nofun, fun h => absurd rfl h, fun h => absurd rfl h⟩

/-- The only body that may still set the flag goes on. -/
theorem Gated.advance {i : ℕ} {s : Stage} {next : Connection × Stage} (hc : c.Gated)
    (hi : c.bodies[i]? = some s) (hs : s.armed = true) (hup : c.lifecycle ≠ .stopped)
    (hnext : Lands next) : Gated { next.1 with bodies := c.bodies.set i next.2 } := by
  have honly : ∀ (j : ℕ) (t : Stage), (c.bodies.set i next.2)[j]? = some t → t.armed = true →
      j = i ∧ t = next.2 :=
    fun _ _ => eq_of_set (p := fun s : Stage => s.armed = true) fun j t hj ht =>
      hc.alone hup i j s t hi hj hs ht
  refine ⟨⟨hnext.single.socket, hnext.single.retry, hnext.single.recovery⟩, hnext.phase,
    fun h => absurd h hnext.lifecycle, fun _ j k t u hj hk ht hu => ?_, fun _ t ht harmed => ?_⟩
  · rw [(honly j t hj ht).1, (honly k u hk hu).1]
  · obtain ⟨j, hj⟩ := List.mem_iff_getElem?.1 ht
    obtain ⟨-, rfl⟩ := honly j t hj harmed
    exact hnext.stage harmed

/-- A body that may not set the flag goes on, or the connection has been stopped. -/
theorem Gated.set {i : ℕ} {s : Stage} (hc : c.Gated) (hne : c.bodies ≠ [])
    (hs : s.armed = false ∨ c.lifecycle = .stopped) :
    Gated { c with bodies := c.bodies.set i s } where
  single := ⟨hc.single.socket, hc.single.retry, hc.single.recovery⟩
  phase := hc.phase
  created h := absurd (hc.created h) hne
  alone h j k t u hj hk ht hu := by
    have hs : ¬ s.armed = true := by simp [hs.resolve_right h]
    have hold : ∀ {j : ℕ} {t : Stage}, (c.bodies.set i s)[j]? = some t → t.armed = true →
        c.bodies[j]? = some t := getElem?_of_set (p := fun s : Stage => s.armed = true) hs
    exact hc.alone h j k t u (hold hj ht) (hold hk hu) ht hu
  stage h t ht harmed := by
    rcases List.mem_or_eq_of_mem_set ht with ht | rfl
    · exact hc.stage h t ht harmed
    · rw [hs.resolve_right h] at harmed
      nomatch harmed

/-! ## The body of `start()` -/

theorem lands_of_early {next : Connection × Stage} (hsingle : next.1.gate.Single)
    (hearly : next.1.gate.Early) (hstage : next.2.armed = true → next.2.early = true) :
    Lands next where
  single := hsingle
  phase := .inr (.inl hearly)
  lifecycle h := nomatch hearly.lifecycle.symm.trans h
  stage harmed := by
    rw [if_pos (hstage harmed)]
    exact hearly

theorem lands_of_up {next : Connection × Stage} (hsingle : next.1.gate.Single)
    (hup : next.1.gate.Up) (hstage : next.2.early = false) : Lands next where
  single := hsingle
  phase := .inr (.inr hup)
  lifecycle h := by
    rcases hup.lifecycle with h' | h' | ⟨h', -⟩ <;> exact nomatch h'.symm.trans h
  stage harmed := by
    rw [hstage]
    exact hup

theorem early_initializeLinks {v2 : ℕ} {cfg : BondingConfig} {links : List BondingLink} :
    (c.initializeLinks v2 cfg links).2.early = false := by
  simp only [initializeLinks]
  split <;> rfl

theorem early_setupReliableClient : (c.setupReliableClient options).2.early = false := by
  rw [setupReliableClient]
  split
  · rfl
  · dsimp only
    cases options.bonding with
    | none => rfl
    | some cfg => exact early_initializeLinks

/-- The body sets the flag, and no recovery is in progress. -/
theorem lands_setupConfigWatchers (hc : c.gate.Single) (hup : c.gate.Up)
    (hfree : c.isShuttingDown = true ∨ c.socketRecoveryInProgress = false) :
    Lands c.setupConfigWatchers := by
  rw [setupConfigWatchers]
  split
  · exact lands_of_up hc hup rfl
  · next hshutting =>
    exact lands_of_up ⟨hc.socket, hc.retry, hc.recovery⟩ ⟨hup.lifecycle, hup.stopped, hup.socket,
      fun _ => hfree.resolve_left hshutting, hup.recovery⟩ rfl

theorem lands_createClient (options : ConnectionOptions) (hc : c.gate.Single)
    (hearly : c.gate.Early) (createThrows : Bool) :
    Lands (c.createClient options createThrows) := by
  rw [createClient]
  split
  · exact lands_of_early ⟨hc.socket, hc.retry, hc.recovery⟩ ⟨hearly.lifecycle, hearly.stopped,
      hearly.readyToSend, hearly.recovering, hearly.subscribed, hearly.socket, hearly.retry,
      hearly.recovery⟩ (by rintro ⟨⟩)
  · -- The socket is there, and nothing has happened to it yet.
    have hrecovering : c.socketRecoveryInProgress = false := hearly.recovering
    have hsingle : (⟨c.lifecycle, c.stopped, c.readyToSend, c.socketRecoveryInProgress,
        c.subscribed, c.socketUdp.assign 1, c.subscriptionRetryTimer, c.socketRecoveryTimer⟩ :
        Gate).Single := ⟨hc.socket.assign hearly.socket, hc.retry, hc.recovery⟩
    have hup : (⟨c.lifecycle, c.stopped, c.readyToSend, c.socketRecoveryInProgress,
        c.subscribed, c.socketUdp.assign 1, c.subscriptionRetryTimer, c.socketRecoveryTimer⟩ :
        Gate).Up :=
      ⟨.inl hearly.lifecycle, hearly.stopped, by rw [hrecovering]; rfl, fun _ => hrecovering,
        fun _ => hearly.recovery⟩
    dsimp only
    split
    · refine lands_of_up ?_ ?_ early_setupReliableClient
      · rw [gate_setupReliableClient]
        exact hsingle
      · rw [gate_setupReliableClient]
        exact hup
    · exact lands_setupConfigWatchers hsingle hup (.inr hrecovering)

theorem up_processSubscriptionConfig (hc : c.gate.Single) (hup : c.gate.Up) (reload : Reload) :
    (c.processSubscriptionConfig reload).gate.Single ∧
      (c.processSubscriptionConfig reload).gate.Up := by
  cases reload with
  | unchanged => exact ⟨hc, hup⟩
  | subscribed enabled =>
    simp only [processSubscriptionConfig, gate_scheduleMetadataSnapshot,
      gate_restartMetadataTimer]
    exact ⟨⟨hc.socket, hc.retry.release, hc.recovery⟩, ⟨hup.lifecycle, hup.stopped, hup.socket,
      hup.readyToSend, hup.recovery⟩⟩
  | failed enabled =>
    exact ⟨⟨hc.socket, hc.retry.release.restart, hc.recovery⟩, ⟨hup.lifecycle, hup.stopped,
      hup.socket, nofun, hup.recovery⟩⟩

/-- `transition("Ready")` outside of a recovery. -/
theorem transition_ready_of_up (hup : c.gate.Up) (hrecovering : c.socketRecoveryInProgress = false) :
    (c.lifecycle.transition .ready).1 = .ready := by
  rcases hup.lifecycle with h | h | ⟨-, h⟩
  · rw [show c.lifecycle = .starting from h]
    rfl
  · rw [show c.lifecycle = .ready from h]
    rfl
  · exact absurd (hrecovering.symm.trans h) (by decide)

theorem not_shuttingDown_of_early (hearly : c.gate.Early) : c.isShuttingDown = false := by
  rw [Connection.isShuttingDown, show c.lifecycle = .starting from hearly.lifecycle]
  rfl

theorem not_shuttingDown_of_up (hup : c.gate.Up) : c.isShuttingDown = false := by
  rw [Connection.isShuttingDown]
  rcases hup.lifecycle with h | h | ⟨h, -⟩ <;> rw [show c.lifecycle = _ from h] <;> rfl

/-- **One step of the body.** -/
theorem lands_proceed (options : ConnectionOptions) (o : Outcome) {s : Stage}
    (hc : c.gate.Single) (hs : s.armed = true) (hstage : c.AtStage s)
    (hfree : s = .reliableClient ∨ s = .clientStarted →
      c.isShuttingDown = true ∨ c.socketRecoveryInProgress = false) :
    Lands (c.proceed options o s) := by
  have hstage := hstage hs
  cases s with
  | storage =>
    have hearly : c.gate.Early := hstage
    simp only [proceed, not_shuttingDown_of_early hearly, Bool.false_eq_true, if_false]
    split
    · exact lands_of_early hc hearly (by rintro ⟨⟩)
    · exact lands_of_early hc hearly fun _ => rfl
  | timerFile =>
    have hearly : c.gate.Early := hstage
    simp only [proceed, not_shuttingDown_of_early hearly, Bool.false_eq_true, if_false]
    exact lands_of_early hc hearly fun _ => rfl
  | epochFile =>
    have hearly : c.gate.Early := hstage
    simp only [proceed, not_shuttingDown_of_early hearly, Bool.false_eq_true, if_false]
    exact lands_createClient options hc hearly o.createThrows
  | bindLink v2 link links =>
    simp only [proceed]
    cases options.bonding with
    | none => exact lands_of_up hc hstage rfl
    | some cfg =>
      dsimp only
      split
      · exact lands_of_up hc hstage rfl
      · exact lands_of_up hc hstage early_initializeLinks
  | bonding v2 =>
    simp only [proceed]
    split <;> exact lands_of_up hc hstage rfl
  | hello v2 => exact lands_of_up hc hstage rfl
  | helloSent => exact lands_of_up hc hstage rfl
  | reliableClient => exact lands_setupConfigWatchers hc hstage (hfree (.inl rfl))
  | watchers =>
    simp only [proceed]
    split
    · exact lands_of_up hc hstage rfl
    · obtain ⟨hsingle, hup⟩ := up_processSubscriptionConfig hc hstage o.reload
      exact lands_of_up hsingle hup rfl
  | clientStarted =>
    have hup : c.gate.Up := hstage
    have hrecovering := (hfree (.inr rfl)).resolve_left (by
      rw [not_shuttingDown_of_up hup]
      decide)
    simp only [proceed, not_shuttingDown_of_up hup, Bool.false_eq_true, if_false]
    exact lands_of_up ⟨hc.socket, hc.retry, hc.recovery⟩
      ⟨.inr (.inl (transition_ready_of_up hup hrecovering)),
      hup.stopped, hup.socket, fun _ => hrecovering, hup.recovery⟩ rfl
  | clientThrew => cases hs
  | done => cases hs

/-- On a connection that has been stopped no body sets the flag. -/
theorem gate_proceed_of_down (options : ConnectionOptions) (o : Outcome) {s : Stage}
    (hdown : c.lifecycle = .stopped) (hstopped : c.stopped = true) :
    (c.proceed options o s).1.gate = c.gate ∨ (c.proceed options o s).1 = c.stop := by
  have hshutting : c.isShuttingDown = true := by
    rw [isShuttingDown, hdown]
    rfl
  cases s with
  | storage =>
    simp only [proceed, hshutting, if_true]
    split <;> exact .inl rfl
  | timerFile => simp [proceed, hshutting]
  | epochFile => simp [proceed, hshutting]
  | bindLink v2 link links =>
    simp only [proceed]
    cases options.bonding with
    | none => exact .inl rfl
    | some cfg =>
      dsimp only
      split <;> exact .inl rfl
  | bonding v2 => simp [proceed, hshutting]
  | hello v2 => exact .inl rfl
  | helloSent => exact .inl rfl
  | reliableClient => simp [proceed, setupConfigWatchers, hshutting]
  | watchers => simp [proceed, hstopped]
  | clientStarted => simp [proceed, hshutting]
  | clientThrew => exact .inr rfl
  | done => exact .inl rfl

theorem Gated.resume (hc : c.Gated) {i : ℕ} {o : Outcome}
    (hfree : c.Uninterrupted (.resume i o)) : (c.resume options i o).Gated := by
  cases hi : c.bodies[i]? with
  | none =>
    rw [Connection.resume, hi]
    exact hc
  | some s =>
    rw [resume_eq hi]
    have hne : c.bodies ≠ [] := fun h => by rw [h] at hi; cases hi
    by_cases hstopped : c.lifecycle = .stopped
    · have hdown : c.gate.Down := by
        rcases hc.phase with hdown | hearly | hup
        · exact hdown
        · cases hstopped.symm.trans hearly.lifecycle
        · rcases hup.lifecycle with h | h | ⟨h, -⟩ <;> cases hstopped.symm.trans h
      have hflag : c.stopped = true := by
        rcases hdown.lifecycle with h | ⟨-, h⟩
        · cases hstopped.symm.trans h
        · exact h
      refine gated_of_down ?_ ?_ ?_ <;>
        rcases gate_proceed_of_down options o (s := s) hstopped hflag with h | h
      · exact show (c.proceed options o s).1.gate.Single from h ▸ hc.single
      · exact show (c.proceed options o s).1.gate.Single from h ▸ (down_stop hc.single).1
      · exact show (c.proceed options o s).1.gate.Down from h ▸ hdown
      · exact show (c.proceed options o s).1.gate.Down from h ▸ (down_stop hc.single).2
      · exact (congrArg Gate.lifecycle h).trans hstopped
      · exact (congrArg lifecycle h).trans lifecycle_stop
    · cases hs : s.armed with
      | true =>
        refine hc.advance hi hs hstopped (lands_proceed options o hc.single hs
          (hc.stage hstopped s (List.mem_of_getElem? hi)) fun h => hfree ?_)
        rcases h with rfl | rfl
        · exact .inl hi
        · exact .inr hi
      | false =>
        cases s <;> try contradiction
        case clientThrew =>
          exact gated_of_down (down_stop hc.single).1 (down_stop hc.single).2 lifecycle_stop
        case done => exact hc.set hne (.inl rfl)

/-! ## Errors and timers -/

/-- Only a connection that is up has a live socket, a recovery timer or a subscription. -/
theorem Gated.up_of (hc : c.Gated) (h : c.socketUdp.live ≠ 0 ∨ c.socketRecoveryTimer.live ≠ 0 ∨
    c.subscriptionRetryTimer.live ≠ 0 ∨ c.subscribed = true) : c.gate.Up := by
  have hdead : ∀ {h : Handle}, h.Single → h.held = 0 → h.live = 0 :=
    fun hsingle hheld => Handle.live_eq_zero.2 ⟨hheld, hsingle.lost_eq⟩
  rcases hc.phase with hdown | hearly | hup
  · rcases h with h | h | h | h
    · exact absurd (hdead hc.single.socket hdown.socket) h
    · exact absurd (hdead hc.single.recovery hdown.recovery) h
    · exact absurd (hdead hc.single.retry hdown.retry) h
    · exact absurd (hdown.subscribed.symm.trans h) (by decide)
  · rcases h with h | h | h | h
    · exact absurd (hdead hc.single.socket hearly.socket) h
    · exact absurd (hdead hc.single.recovery hearly.recovery) h
    · exact absurd (hdead hc.single.retry hearly.retry) h
    · exact absurd (hearly.subscribed.symm.trans h) (by decide)
  · exact hup

theorem gate_handleClientSocketError (hrecovering : c.socketRecoveryInProgress = false)
    (hshutting : c.isShuttingDown = false) :
    c.handleClientSocketError.gate = ⟨(c.lifecycle.transition .recovering).1, c.stopped, false,
      true, c.subscribed, c.socketUdp.release, c.subscriptionRetryTimer,
      c.socketRecoveryTimer.assign 1⟩ ∧ c.handleClientSocketError.bodies = c.bodies := by
  have hstill : (c.lifecycle.transition .recovering).1.isShuttingDown = false := by
    rw [isShuttingDown] at hshutting
    cases h : c.lifecycle <;> rw [h] at hshutting <;> first | rfl | cases hshutting
  rw [handleClientSocketError, hrecovering, hshutting]
  cases hp : c.pipeline <;>
    simp [withPipeline, transition, isShuttingDown, hstill, modifyPipeline, gate]

theorem Gated.socketError (hc : c.Gated) (hlive : c.socketUdp.live ≠ 0) :
    c.handleClientSocketError.Gated := by
  have hup := hc.up_of (.inl hlive)
  have hshutting := not_shuttingDown_of_up hup
  cases hrecovering : c.socketRecoveryInProgress with
  | true =>
    rw [handleClientSocketError, hrecovering]
    exact hc
  | false =>
    obtain ⟨hgate, hbodies⟩ := gate_handleClientSocketError hrecovering hshutting
    have hlifecycle : (c.lifecycle.transition .recovering).1 = .starting ∨
        (c.lifecycle.transition .recovering).1 = .recovering := by
      rcases hup.lifecycle with h | h | ⟨-, h⟩
      · exact .inl (by rw [show c.lifecycle = .starting from h]; rfl)
      · exact .inr (by rw [show c.lifecycle = .ready from h]; rfl)
      · exact absurd (hrecovering.symm.trans h) (by decide)
    refine hc.congr hbodies (fun h => ?_) ?_ hup ?_
    · have := congrArg Gate.lifecycle hgate
      rcases hlifecycle with h' | h' <;>
        exact nomatch h.symm.trans (this.trans h')
    · rw [hgate]
      exact ⟨hc.single.socket.release, hc.single.retry,
        hc.single.recovery.assign (hup.recovery hrecovering)⟩
    · rw [hgate]
      refine ⟨?_, hup.stopped, rfl, nofun, nofun⟩
      rcases hlifecycle with h | h
      · exact .inl h
      · exact .inr (.inr ⟨h, rfl⟩)

@[simp] theorem bodies_scheduleMetadataSnapshot :
    c.scheduleMetadataSnapshot.bodies = c.bodies := by
  rw [scheduleMetadataSnapshot]
  split <;> rfl

@[simp] theorem bodies_restartMetadataTimer : c.restartMetadataTimer.bodies = c.bodies := by
  rw [restartMetadataTimer]
  split <;> rfl

theorem gate_recoveryFailed (hshutting : c.isShuttingDown = false) :
    c.recoveryFailed.gate = { c.gate with
      socketUdp := c.socketUdp.release
      socketRecoveryTimer := c.socketRecoveryTimer.assign 1 } ∧
      c.recoveryFailed.bodies = c.bodies := by
  have hstill : isShuttingDown { c with socketUdp := c.socketUdp.release } = false := hshutting
  rw [recoveryFailed, if_neg (by rw [hstill]; decide)]
  exact ⟨rfl, rfl⟩

theorem gate_recoverClientSocket (options : ConnectionOptions) :
    (c.recoverClientSocket options .succeeds).gate = { c.gate with
      lifecycle := (c.lifecycle.transition .ready).1
      readyToSend := true
      socketRecoveryInProgress := false
      socketUdp := c.socketUdp.assign 1 } ∧
      (c.recoverClientSocket options .succeeds).bodies = c.bodies := by
  simp only [recoverClientSocket, gate_scheduleMetadataSnapshot, bodies_scheduleMetadataSnapshot,
    rearmPipeline]
  split
  · next hp =>
    rw [show c.pipeline = none from hp]
    exact ⟨rfl, rfl⟩
  · next hp =>
    rw [show c.pipeline = some _ from hp]
    exact ⟨rfl, rfl⟩

/-- The gate after an attempt that has failed. -/
theorem Gated.attemptFailed (hc : c.Gated) (hup : c.gate.Up)
    (hrecovering : c.socketRecoveryInProgress = true) {socket : Handle} (hsocket : socket.Single)
    (hheld : socket.held = 0) (hbodies : c'.bodies = c.bodies)
    (hgate : c'.gate = { c.gate with
      socketUdp := socket
      socketRecoveryTimer := c.socketRecoveryTimer.fire.assign 1 }) : c'.Gated := by
  refine hc.congr hbodies (fun h => (congrArg Gate.lifecycle hgate).symm.trans h) ?_ hup ?_
  · rw [hgate]
    exact ⟨hsocket, hc.single.retry, hc.single.recovery.fire.assign rfl⟩
  · rw [hgate]
    refine ⟨hup.lifecycle, hup.stopped, ?_, hup.readyToSend, fun h => ?_⟩
    · exact hheld.trans (by rw [show c.gate.socketRecoveryInProgress = true from hrecovering]; rfl)
    · exact absurd (hrecovering.symm.trans h) (by decide)

theorem Gated.recoveryTimer (hc : c.Gated) (hlive : c.socketRecoveryTimer.live ≠ 0)
    (attempt : Attempt) : (c.recoveryTimerFired options attempt).Gated := by
  have hup := hc.up_of (.inr (.inl hlive))
  have hrecovering : c.socketRecoveryInProgress = true := by
    by_contra h
    exact hlive (Handle.live_eq_zero.2
      ⟨hup.recovery (Bool.eq_false_iff.2 h), hc.single.recovery.lost_eq⟩)
  have hnone : c.socketUdp.held = 0 := by
    have hsocket := hup.socket
    rwa [show c.gate.socketRecoveryInProgress = true from hrecovering] at hsocket
  have hshutting : isShuttingDown { c with socketRecoveryTimer := c.socketRecoveryTimer.fire } =
      false := not_shuttingDown_of_up (c := c) hup
  simp only [recoveryTimerFired, hshutting, Bool.false_eq_true, if_false]
  cases attempt with
  | createThrows =>
    obtain ⟨hgate, hbodies⟩ := gate_recoveryFailed hshutting
    exact hc.attemptFailed hup hrecovering hc.single.socket.release rfl hbodies hgate
  | rearmThrows =>
    obtain ⟨hgate, hbodies⟩ := gate_recoveryFailed
      (c := { c with
        socketRecoveryTimer := c.socketRecoveryTimer.fire
        socketUdp := c.socketUdp.assign 1 }) hshutting
    exact hc.attemptFailed hup hrecovering (hc.single.socket.assign hnone).release rfl hbodies
      hgate
  | succeeds =>
    obtain ⟨hgate, hbodies⟩ := gate_recoverClientSocket options
      (c := { c with socketRecoveryTimer := c.socketRecoveryTimer.fire })
    have hready : (c.lifecycle.transition .ready).1 = .ready := by
      rcases hup.lifecycle with h | h | ⟨h, -⟩ <;>
        (rw [show c.lifecycle = _ from h]; rfl)
    refine hc.congr hbodies (fun h => ?_) ?_ hup ?_
    · exact nomatch h.symm.trans ((congrArg Gate.lifecycle hgate).trans hready)
    · rw [hgate]
      exact ⟨hc.single.socket.assign hnone, hc.single.retry, hc.single.recovery.fire⟩
    · rw [hgate]
      exact ⟨.inr (.inl hready), hup.stopped, rfl, fun _ => rfl, fun _ => rfl⟩

theorem Gated.subscriptionError (hc : c.Gated) (hsubscribed : c.subscribed = true) :
    c.subscriptionErrorHandler.Gated := by
  have hup := hc.up_of (.inr (.inr (.inr hsubscribed)))
  rw [subscriptionErrorHandler, if_neg (by rw [show c.stopped = false from hup.stopped]; decide)]
  dsimp only
  split
  · exact hc.congr rfl id ⟨hc.single.socket, hc.single.retry.restart, hc.single.recovery⟩ hup
      ⟨hup.lifecycle, hup.stopped, hup.socket, nofun, hup.recovery⟩
  · exact hc.congr rfl id ⟨hc.single.socket, hc.single.retry, hc.single.recovery⟩ hup
      ⟨hup.lifecycle, hup.stopped, hup.socket, nofun, hup.recovery⟩

@[simp] theorem gate_commitPendingMeta : c.commitPendingMeta.gate = c.gate := by
  rw [commitPendingMeta]
  split
  · rfl
  · rw [gate_scheduleMetadataSnapshot, gate_restartMetadataTimer]
    rfl

@[simp] theorem bodies_commitPendingMeta : c.commitPendingMeta.bodies = c.bodies := by
  rw [commitPendingMeta]
  split
  · rfl
  · rw [bodies_scheduleMetadataSnapshot, bodies_restartMetadataTimer]

/-- The retry looks for a recovery before it sets the flag. -/
theorem Gated.subscriptionRetry (hc : c.Gated) (hlive : c.subscriptionRetryTimer.live ≠ 0)
    (throws : Bool) : (c.runSubscriptionRetry throws).Gated := by
  have hup := hc.up_of (.inr (.inr (.inl hlive)))
  have hstopped : c.stopped = false := hup.stopped
  rw [runSubscriptionRetry, if_neg (by
    rw [show Connection.stopped _ = c.stopped from rfl, hstopped]
    decide)]
  dsimp only
  split
  · exact hc.congr rfl id ⟨hc.single.socket, hc.single.retry.fire.restart, hc.single.recovery⟩ hup
      ⟨hup.lifecycle, hup.stopped, hup.socket, hup.readyToSend, hup.recovery⟩
  · generalize hnext : commitPendingMeta { c with
      subscriptionRetryTimer := c.subscriptionRetryTimer.fire
      subscribed := true } = next
    have hgate : next.gate = { c.gate with
        subscriptionRetryTimer := c.subscriptionRetryTimer.fire
        subscribed := true } := by
      rw [← hnext, gate_commitPendingMeta]
      rfl
    have hbodies : next.bodies = c.bodies := by rw [← hnext, bodies_commitPendingMeta]
    have hsingle : next.gate.Single := by
      rw [hgate]
      exact ⟨hc.single.socket, hc.single.retry.fire, hc.single.recovery⟩
    have hup' : next.gate.Up := by
      rw [hgate]
      exact ⟨hup.lifecycle, hup.stopped, hup.socket, hup.readyToSend, hup.recovery⟩
    have hcreated : next.lifecycle = .created → c.lifecycle = .created :=
      (congrArg Gate.lifecycle hgate).symm.trans
    split
    · exact hc.congr hbodies hcreated hsingle hup hup'
    · next hfree =>
      simp only [Bool.or_eq_true, not_or, Bool.not_eq_true] at hfree
      exact hc.congr hbodies hcreated ⟨hsingle.socket, hsingle.retry, hsingle.recovery⟩ hup
        ⟨hup'.lifecycle, hup'.stopped, hup'.socket, fun _ => hfree.1, hup'.recovery⟩

/-- What touches neither the gate nor the bodies. -/
theorem Gated.frame (hc : c.Gated) (hgate : c'.gate = c.gate) (hbodies : c'.bodies = c.bodies) :
    c'.Gated := by
  have hlifecycle : c'.lifecycle = c.lifecycle := congrArg Gate.lifecycle hgate
  refine ⟨hgate ▸ hc.single, hgate ▸ hc.phase, fun h => ?_, fun h => ?_, fun h => ?_⟩
  · rw [hbodies]
    exact hc.created (hlifecycle ▸ h)
  · rw [hbodies]
    exact hc.alone (hlifecycle ▸ h)
  · intro s hs
    rw [AtStage, hgate]
    exact hc.stage (hlifecycle ▸ h) s (hbodies ▸ hs)

/-- **One event.** The invariant is kept by every event that does not interrupt a body. -/
theorem Gated.step (hc : c.Gated) {e : Event} (hfree : c.Uninterrupted e) :
    (c.step options e).Gated := by
  cases e with
  | start => exact hc.start hfree
  | stop => exact hc.stop
  | resume i o => exact hc.resume hfree
  | socketError =>
    rw [Connection.step]
    split
    · exact hc
    · next hlive => exact hc.socketError hlive
  | recoveryTimer attempt =>
    rw [Connection.step]
    split
    · exact hc
    · next hlive => exact hc.recoveryTimer hlive attempt
  | helloSent k helloAcknowledged =>
    rw [Connection.step]
    split
    · exact hc
    · exact hc.frame rfl rfl
  | helloRetry v2 helloAcknowledged =>
    rw [Connection.step, helloRetryFired]
    split_ifs
    · exact hc
    · exact hc.frame rfl rfl
    · exact hc.frame rfl rfl
  | keepalive idle =>
    rw [Connection.step, keepaliveFired]
    split_ifs
    · exact hc
    · exact hc.frame rfl rfl
    · cases c.pipeline with
      | none => exact hc
      | some v2 => exact hc.frame rfl rfl
    · exact hc
  | subscriptionError =>
    rw [Connection.step]
    split
    · next hsubscribed => exact hc.subscriptionError hsubscribed
    · exact hc
  | subscriptionRetry throws =>
    rw [Connection.step]
    split
    · exact hc
    · next hlive => exact hc.subscriptionRetry hlive throws

/-- **The send gate.** As long as no body is interrupted, a connection that is ready to send is
`Starting` or `Ready`, has a live socket and is not recovering it. -/
theorem send_gate (options : ConnectionOptions) {events : List Event}
    (hfree : Along (Connection.step options) Uninterrupted new events)
    (hready : (run (Connection.step options) new events).readyToSend = true) :
    ((run (Connection.step options) new events).lifecycle = .starting ∨
      (run (Connection.step options) new events).lifecycle = .ready) ∧
    (run (Connection.step options) new events).socketUdp.held = 1 ∧
    (run (Connection.step options) new events).socketRecoveryInProgress = false :=
  Gate.open_of_readyToSend
    (Along.invariant (fun _ _ hc he => hc.step he) gated_new hfree).phase hready

/-- A socket error in the HELLO, recovered from before the body goes on, and a second one after
the start has been seen through. -/
theorem send_gate_recovered :
    (run (Connection.step reliableOptions) new ((.start :: goOn 0 4) ++
      [.socketError, .recoveryTimer .createThrows, .recoveryTimer .succeeds] ++ goOn 0 5 ++
      [.socketError, .recoveryTimer .succeeds])).socketUdp.held = 1 :=
  (send_gate reliableOptions (by decide +kernel) (by decide +kernel)).2.1

/-- A socket error that lands in the HELLO: the body goes on and opens the gate, while there is no
socket and the recovery is still in progress. -/
theorem ready_during_recovery :
    let c := run (Connection.step reliableOptions) new
      ((.start :: goOn 0 4) ++ .socketError :: goOn 0 3)
    c.readyToSend = true ∧ c.socketUdp.held = 0 ∧ c.socketRecoveryInProgress = true := by
  decide +kernel

end Connection

end EdgeLink
